import SaveAs.Proofs.Session.Slots

/-!
# The moments of a run

A run is a row of moments: a state, and what is asked of it. What is said of every moment is said of
every step of every run. A moment at which a trigger is run, built for it or kept, goes in one of two ways,
as its resolver gives a payload or not.
-/

namespace SaveAs

theorem getLast?_filterMap_cons {α β : Type} (f : α → Option β) (a : α) (as : List α) :
    ((a :: as).filterMap f).getLast? = (as.filterMap f).getLast?.or (f a) := by
  cases hf : f a with
  | none => rw [List.filterMap_cons_none hf, Option.or_none]
  | some b => rw [List.filterMap_cons_some hf, List.getLast?_cons, Option.or_some]

namespace Session

structure Moment where
  state : State
  request : Request

def Moment.reply (m : Moment) : Reply :=
  (step m.state m.request).1

def moments (s : State) : List Request → List Moment
  | [] => []
  | r :: rest => ⟨s, r⟩ :: moments (step s r).2 rest

theorem replies_run (s : State) (requests : List Request) :
    (run s requests).1 = (moments s requests).map Moment.reply := by
  induction requests generalizing s with
  | nil => rfl
  | cons r rest ih => exact congrArg ((step s r).1 :: ·) (ih (step s r).2)

/-! ### Running a trigger -/

/-- A trigger that is run on a handle, with the words that it draws its name from. -/
structure Firing where
  trigger : Trigger
  handle : String
  source : Source

/-- The trigger that a request runs. Saving bytes runs one that is built for it, on the encoded bytes. -/
def fired? (s : State) (r : Request) : Option Firing :=
  match r.options.read, r.step with
  | .ok _, .fire name handle => (trigger? s name).map fun (_, t) => ⟨t, handle, .generator⟩
  | .ok _, .call name function handle =>
    (function? s name function).map fun (_, t) => ⟨t, handle, .ambient⟩
  | .ok given, .saveBytes saver bytes =>
    some ⟨⟨.inline, s.saver saver, given.getD s.options⟩, Base64.encode bytes, .ambient⟩
  | _, _ => none

/-- The three ways in which a request runs a trigger. -/
inductive Fires (s : State) : Request → Firing → Prop
  | named {source : Options.Source} {given : Option Options} {name handle : String} {i : Nat}
      {t : Trigger} (read : source.read = .ok given) (trigger : trigger? s name = some (i, t)) :
      Fires s ⟨source, .fire name handle⟩ ⟨t, handle, .generator⟩
  | hosted {source : Options.Source} {given : Option Options} {name function handle : String} {i : Nat}
      {t : Trigger} (read : source.read = .ok given)
      (imported : function? s name function = some (i, t)) :
      Fires s ⟨source, .call name function handle⟩ ⟨t, handle, .ambient⟩
  | direct {source : Options.Source} {given : Option Options} {saver : String} {bytes : List UInt8}
      (read : source.read = .ok given) :
      Fires s ⟨source, .saveBytes saver bytes⟩
        ⟨⟨.inline, s.saver saver, given.getD s.options⟩, Base64.encode bytes, .ambient⟩

theorem fires_of_fired {s : State} {r : Request} {f : Firing} (h : fired? s r = some f) :
    Fires s r f := by
  obtain ⟨source, x⟩ := r
  rw [fired?] at h
  split at h
  · rename_i hread hstep
    cases hstep
    obtain ⟨_, htrigger, rfl⟩ := Option.map_eq_some_iff.1 h
    exact .named hread htrigger
  · rename_i hread hstep
    cases hstep
    obtain ⟨_, himported, rfl⟩ := Option.map_eq_some_iff.1 h
    exact .hosted hread himported
  · rename_i hread hstep
    cases hstep
    obtain rfl := Option.some.inj h
    exact .direct hread
  · cases h

namespace Firing

/-- What the trigger's resolver makes of the handle. -/
def resolved (f : Firing) : Outcome Failure Event Resolver String :=
  Resolver.resolve f.handle f.trigger.resolver

/-- The download that the trigger makes of a payload. -/
def handed (f : Firing) (payload : String) (s : State) : Download :=
  Session.handed payload f.trigger.options f.source s

/-- What the trigger's saver makes of that download, once its name is drawn. -/
def saved (f : Firing) (payload : String) (s : State) : Outcome Failure Event State Unit :=
  saveWith f.trigger.saver (f.handed payload s) (f.source.draw f.trigger.options s)

def run (f : Firing) : Act Unit :=
  f.trigger.run f.handle f.source

variable {f : Firing} {s : State}

theorem run_of_unresolved {e : Failure} (h : f.resolved.result = .error e) :
    f.run s = ⟨.error e, .log .requested :: f.resolved.events, s⟩ := by
  have hanswer : f.trigger.answer f.handle s = ⟨.error e, f.resolved.events, s⟩ := by
    rw [← h]
    rfl
  exact deliver_of_unresolved hanswer

theorem run_of_resolved {payload : String} (h : f.resolved.result = .ok payload) :
    f.run s =
      ⟨(f.saved payload s).result,
        .log .requested :: (f.resolved.events ++
          .log (.resolved (f.handed payload s).filename payload.utf8ByteSize) ::
            ((f.saved payload s).events ++
              Delivery.closing (fun c _ => [.log c]) (f.handed payload s).filename
                (f.saved payload s))),
        (f.saved payload s).world⟩ := by
  have hanswer : f.trigger.answer f.handle s = ⟨.ok payload, f.resolved.events, s⟩ := by
    rw [← h]
    rfl
  exact deliver_of_resolved hanswer rfl

end Firing

variable {s : State} {r : Request} {f : Firing}

/-- A step that runs a trigger answers as the trigger does by itself, and leaves what the trigger leaves
but for a resolver that gave a payload away. -/
theorem step_of_fired (h : fired? s r = some f) :
    (step s r).1.result = .ended (f.run s).result ∧ (step s r).1.events = (f.run s).events ∧
      ∃ g, Unseen g ∧ (step s r).2 = g (f.run s).world := by
  cases fires_of_fired h with
  | @named source given name handle i t hread htrigger =>
    have hfire := fire_of_trigger (getElem?_of_trigger? htrigger) handle .generator
    simp only [step_of_read hread, perform, htrigger, replyOf, hfire]
    exact ⟨rfl, rfl, _, .setResolver i _, rfl⟩
  | @hosted source given name function handle i t hread himported =>
    have hfire := fire_of_trigger (getElem?_of_function? himported) handle .ambient
    simp only [step_of_read hread, perform, himported, replyOf, hfire]
    exact ⟨rfl, rfl, _, .setResolver i _, rfl⟩
  | direct hread =>
    rw [step_of_read hread]
    exact ⟨rfl, rfl, id, ⟨fun _ => rfl, fun _ => rfl, fun _ => rfl, fun _ => rfl, fun _ => rfl,
      fun _ _ => rfl, fun _ _ => rfl, fun _ _ => rfl, fun _ _ => rfl⟩, rfl⟩

end Session

end SaveAs
