import SaveAs.Proofs.Session.Handing

/-!
# What the log says

A delivery logs that it was requested, that its payload is there, and that it is done. What it logs is
true whichever resolver and saver take part and wherever they fail: the events of a step are read off the
two ways in which a trigger can run, and no other step logs anything.
-/

namespace SaveAs

/-- An entry that is in neither the first part nor the last has all of the first part before it, and
nothing of the last. -/
theorem between_of_append {α : Type} {front middle back earlier later : List α} {a : α}
    (h : front ++ (middle ++ back) = earlier ++ a :: later) (hfront : a ∉ front) (hback : a ∉ back) :
    front <+: earlier ∧ earlier <+: front ++ middle := by
  have hearlier : earlier <+: front ++ (middle ++ back) := ⟨a :: later, h.symm⟩
  constructor
  · obtain hbegins | ⟨rest, rfl⟩ :=
      List.prefix_or_prefix_of_prefix (List.prefix_append front (middle ++ back)) hearlier
    · exact hbegins
    · rw [List.append_assoc, List.append_cancel_left_eq] at h
      cases rest with
      | nil => exact ⟨[], by simp only [List.append_nil]⟩
      | cons b rest =>
        obtain ⟨rfl, -⟩ := List.cons_eq_cons.1 h
        exact absurd (List.mem_append_right earlier List.mem_cons_self) hfront
  · rw [← List.append_assoc] at h hearlier
    obtain hbegins | ⟨rest, rfl⟩ :=
      List.prefix_or_prefix_of_prefix hearlier (List.prefix_append (front ++ middle) back)
    · exact hbegins
    · rw [List.append_assoc _ rest, List.append_cancel_left_eq] at h
      exact absurd (h ▸ List.mem_append_right rest List.mem_cons_self) hback

namespace Session

def Event.checkpoint? : Event → Option Checkpoint
  | log c => some c
  | _ => none

/-- Whether an event is one of a saver. -/
def Event.ofSaver : Event → Bool
  | save _ | document _ => true
  | _ => false

variable {s : State} {r : Request} {f : Firing} {e : Event} {payload : String}

theorem checkpoint?_of_ofSaver (h : e.ofSaver = true) : e.checkpoint? = none := by
  cases e <;> first | rfl | cases h

theorem checkpoint?_of_not_ofDelivery (h : e.ofDelivery = false) : e.checkpoint? = none := by
  cases e <;> first | rfl | cases h

theorem saveWith_emits_ofSaver (saver : Saver) (d : Download) :
    (saveWith saver d).Emits fun e => e.ofSaver = true := by
  cases saver with
  | record => exact .emit rfl
  | failing text => exact .fail _
  | anchor i =>
    intro s e he
    obtain ⟨inner, -, rfl⟩ := List.mem_map.1 he
    rfl
  | directory dir =>
    refine (Action.Emits.ofExcept _).bind fun bytes _ => .of_nil fun s => ?_
    cases s.files.write s.home (dir.join d.filename) bytes <;> rfl

/-! ### One run of a trigger -/

namespace Firing

/-- What comes before a saver is asked. -/
def opening (f : Firing) (payload : String) (s : State) : List Event :=
  .log .requested ::
    (f.resolved.events ++ [.log (.resolved (f.handed payload s).filename payload.utf8ByteSize)])

def closing (f : Firing) (payload : String) (s : State) : List Event :=
  Delivery.closing (fun c _ => [.log c]) (f.handed payload s).filename (f.saved payload s)

theorem events_of_resolved (h : f.resolved.result = .ok payload) (s : State) :
    (f.run s).events = f.opening payload s ++ ((f.saved payload s).events ++ f.closing payload s) := by
  rw [run_of_resolved h, opening, closing]
  simp

theorem checkpoint?_resolved (f : Firing) : f.resolved.events.filterMap Event.checkpoint? = [] := by
  refine List.filterMap_eq_nil_iff.2 fun e he => ?_
  rw [Resolver.eq_consume_of_mem he]
  rfl

theorem checkpoint?_saved (f : Firing) (payload : String) (s : State) :
    (f.saved payload s).events.filterMap Event.checkpoint? = [] :=
  List.filterMap_eq_nil_iff.2 fun e he =>
    checkpoint?_of_ofSaver (saveWith_emits_ofSaver _ _ _ e he)

theorem checkpoint?_opening (f : Firing) (payload : String) (s : State) :
    (f.opening payload s).filterMap Event.checkpoint? =
      [.requested, .resolved (f.handed payload s).filename payload.utf8ByteSize] := by
  simp [opening, Event.checkpoint?, checkpoint?_resolved]

theorem checkpoint?_closing (f : Firing) (payload : String) (s : State) :
    (f.closing payload s).filterMap Event.checkpoint? =
      match (f.saved payload s).result with
      | .ok () => [.triggered (f.handed payload s).filename]
      | .error _ => [] := by
  rw [closing, Delivery.closing]
  cases (f.saved payload s).result <;> rfl

theorem ofSaver_opening (f : Firing) (payload : String) (s : State) :
    ∀ e ∈ f.opening payload s, e.ofSaver = false := by
  intro e he
  simp only [opening, List.mem_cons, List.mem_append, List.not_mem_nil, or_false] at he
  obtain rfl | he | rfl := he
  · rfl
  · rw [Resolver.eq_consume_of_mem he]
    rfl
  · rfl

theorem ofSaver_closing (f : Firing) (payload : String) (s : State) :
    ∀ e ∈ f.closing payload s, e.ofSaver = false := by
  intro e he
  rw [eq_triggered_of_mem_closing he]
  rfl

/-- Of what a trigger shows, its saver has shown what it shows by itself. -/
theorem filter_ofSaver (h : f.resolved.result = .ok payload) (s : State) :
    (f.run s).events.filter Event.ofSaver = (f.saved payload s).events := by
  have hopening := List.filter_eq_nil_iff.2 fun e he =>
    Bool.eq_false_iff.1 (f.ofSaver_opening payload s e he)
  have hclosing := List.filter_eq_nil_iff.2 fun e he =>
    Bool.eq_false_iff.1 (f.ofSaver_closing payload s e he)
  have hsaved : ∀ e ∈ (f.saved payload s).events, e.ofSaver = true :=
    saveWith_emits_ofSaver _ _ _
  rw [events_of_resolved h, List.filter_append, List.filter_append, hopening, hclosing, List.nil_append,
    List.append_nil, List.filter_eq_self.2 hsaved]

end Firing

/-- What a step that runs a trigger logs, and how that stands to what it does. -/
structure Logged (f : Firing) (m : Moment) (logs : List Checkpoint) (filename : String) (bytes : Nat) :
    Prop where
  nonempty : logs ≠ []
  begins : logs <+: [.requested, .resolved filename bytes, .triggered filename]
  resolved_iff : .resolved filename bytes ∈ logs ↔ ∃ payload, f.resolved.result = .ok payload
  triggered_iff : .triggered filename ∈ logs ↔ m.reply.result = .ended (.ok ())
  /-- A resolver's failure is the outcome, and no saver takes part. -/
  unresolved : ∀ e, f.resolved.result = .error e →
    m.reply.result = .ended (.error e) ∧ ∀ e ∈ m.reply.events, e.ofSaver = false
  /-- A payload is handed over as it is, under the name that is logged, and the saver's outcome is the
  step's. -/
  resolved : ∀ payload, f.resolved.result = .ok payload →
    ∃ d, handed? m.state m.request = some (f.trigger.saver, d) ∧
      d.payload = payload ∧ d.filename = filename ∧ bytes = payload.utf8ByteSize ∧
      let saved := saveWith f.trigger.saver d (f.source.draw f.trigger.options m.state)
      m.reply.result = .ended saved.result ∧ m.reply.events.filter Event.ofSaver = saved.events
  between : ∀ earlier e later, m.reply.events = earlier ++ e :: later → e.ofSaver = true →
    .log (.resolved filename bytes) ∈ earlier ∧ .log (.triggered filename) ∉ earlier

variable {m : Moment}

theorem logged_of_unresolved {e : Failure} (hfired : fired? m.state m.request = some f)
    (h : f.resolved.result = .error e) :
    Logged f m (m.reply.events.filterMap Event.checkpoint?) "" 0 := by
  obtain ⟨hresult, hevents, -⟩ := step_of_fired hfired
  rw [Firing.run_of_unresolved h] at hresult hevents
  have hlogs : m.reply.events.filterMap Event.checkpoint? = [.requested] := by
    rw [Moment.reply, hevents, List.filterMap_cons, Firing.checkpoint?_resolved]
    rfl
  have hquiet : ∀ e ∈ m.reply.events, e.ofSaver = false := by
    intro e he
    rw [Moment.reply, hevents] at he
    obtain rfl | he := List.mem_cons.1 he
    · rfl
    · rw [Resolver.eq_consume_of_mem he]
      rfl
  rw [hlogs]
  refine ⟨by simp, ⟨_, rfl⟩, ?_, ?_, fun e' he' => ?_, fun payload hpayload => ?_, ?_⟩
  · simp [h]
  · rw [Moment.reply, hresult]
    simp
  · rw [h] at he'
    obtain rfl := Except.error.inj he'
    exact ⟨hresult, hquiet⟩
  · rw [h] at hpayload
    cases hpayload
  · intro earlier e' later hsplit hsaver
    have hmem : e' ∈ m.reply.events := hsplit ▸ by simp
    rw [hquiet e' hmem] at hsaver
    cases hsaver

theorem logged_of_resolved (hfired : fired? m.state m.request = some f)
    (h : f.resolved.result = .ok payload) :
    Logged f m (m.reply.events.filterMap Event.checkpoint?) (f.handed payload m.state).filename
      payload.utf8ByteSize := by
  obtain ⟨hresult, hevents, -⟩ := step_of_fired hfired
  have hended : m.reply.result = .ended (f.saved payload m.state).result := by
    rw [Moment.reply, hresult, Firing.run_of_resolved h]
  have hparts : m.reply.events = f.opening payload m.state ++
      ((f.saved payload m.state).events ++ f.closing payload m.state) := by
    rw [Moment.reply, hevents, Firing.events_of_resolved h]
  have hlogs : m.reply.events.filterMap Event.checkpoint? =
      [.requested, .resolved (f.handed payload m.state).filename payload.utf8ByteSize] ++
        match (f.saved payload m.state).result with
        | .ok () => [.triggered (f.handed payload m.state).filename]
        | .error _ => [] := by
    rw [hparts, List.filterMap_append, List.filterMap_append, Firing.checkpoint?_opening,
      Firing.checkpoint?_saved, Firing.checkpoint?_closing, List.nil_append]
  have hsaved : ∀ e ∈ (f.saved payload m.state).events, e.ofSaver = true :=
    saveWith_emits_ofSaver _ _ _
  rw [hlogs]
  refine ⟨by simp, ?_, ?_, ?_, fun e he => ?_, fun payload' hpayload => ?_, ?_⟩
  · cases (f.saved payload m.state).result with
    | ok u => exact List.prefix_rfl
    | error e => exact ⟨[_], rfl⟩
  · simp [h]
  · rw [hended]
    cases (f.saved payload m.state).result <;> simp
  · rw [h] at he
    cases he
  · rw [h] at hpayload
    obtain rfl := Except.ok.inj hpayload
    refine ⟨_, handed?_of_resolved hfired h, rfl, rfl, rfl, hended, ?_⟩
    rw [Moment.reply, hevents, Firing.filter_ofSaver h]
    rfl
  · intro earlier e later hsplit hsaver
    have hbehind : e ∉ f.opening payload m.state := fun he => by
      rw [f.ofSaver_opening payload m.state e he] at hsaver
      cases hsaver
    have hbefore : e ∉ f.closing payload m.state := fun he => by
      rw [f.ofSaver_closing payload m.state e he] at hsaver
      cases hsaver
    obtain ⟨hopening, hends⟩ := between_of_append (hparts.symm.trans hsplit) hbehind hbefore
    refine ⟨hopening.subset (by simp [Firing.opening]), fun htriggered => ?_⟩
    obtain hmem | hmem := List.mem_append.1 (hends.subset htriggered)
    · simp only [Firing.opening, List.mem_cons, List.mem_append, List.not_mem_nil, or_false] at hmem
      obtain hmem | hmem | hmem := hmem
      · cases hmem
      · cases Resolver.eq_consume_of_mem hmem
      · cases hmem
    · cases hsaved _ hmem

theorem checkpoint?_of_unfired (h : fired? s r = none) :
    (step s r).1.events.filterMap Event.checkpoint? = [] := by
  refine List.filterMap_eq_nil_iff.2 fun e he => ?_
  obtain hnone | ⟨saver, d, -, hstep⟩ := handed?_of_unfired h
  · exact checkpoint?_of_not_ofDelivery ((step_idle h hnone).events e he)
  · rw [hstep] at he
    exact checkpoint?_of_ofSaver (saveWith_emits_ofSaver _ _ _ e he)

/-- In every run, a step that runs a trigger logs what happened: the checkpoints that it came to, in
their order, with the name and the size of what the saver was handed, around all that the saver did. Its
outcome is the resolver's or the saver's. No other step logs anything. -/
theorem checkpoints_tell_what_happened (start : State) (requests : List Request) :
    (run start requests).1 = (moments start requests).map Moment.reply ∧
    ∀ m ∈ moments start requests,
      let logs := m.reply.events.filterMap Event.checkpoint?
      match fired? m.state m.request with
      | some f => ∃ filename bytes, Logged f m logs filename bytes
      | none => logs = [] := by
  refine ⟨replies_run start requests, fun m _ => ?_⟩
  dsimp only
  split
  · rename_i f hfired
    cases hresolved : f.resolved.result with
    | error e => exact ⟨_, _, logged_of_unresolved hfired hresolved⟩
    | ok payload => exact ⟨_, _, logged_of_resolved hfired hresolved⟩
  · rename_i hfired
    exact checkpoint?_of_unfired hfired

/-- An anchor that was clicked and is not taken out again: the payload is logged, the download is not. -/
theorem failed_removal_is_no_download :
    let built : List Request := [⟨.absent, .defineSaver "page" (.anchor { remove := some "held" })⟩,
      ⟨.absent, .buildTrigger "trigger" "page" (.table (.ofList [("handle", "AAAA")]))⟩]
    let fired : Request := ⟨.absent, .fire "trigger" "handle"⟩
    let m : Moment := ⟨(run {} built).2, fired⟩
    m ∈ moments {} (built ++ [fired]) ∧ m.reply.result = .ended (.error (.document "held")) ∧
      ∃ f filename bytes, fired? m.state m.request = some f ∧
        Logged f m [.requested, .resolved "out0.png" 4] filename bytes := by
  intro built fired m
  have hm : m ∈ moments {} (built ++ [fired]) := .tail _ (.tail _ (.head _))
  obtain ⟨f, hfired⟩ : ∃ f, fired? m.state m.request = some f := ⟨_, rfl⟩
  have hlogs : m.reply.events.filterMap Event.checkpoint? = [.requested, .resolved "out0.png" 4] := by
    decide +kernel
  have hlogged := (checkpoints_tell_what_happened {} (built ++ [fired])).2 m hm
  rw [hfired, hlogs] at hlogged
  obtain ⟨filename, bytes, hlogged⟩ := hlogged
  exact ⟨hm, rfl, f, filename, bytes, hfired, hlogged⟩

end Session

end SaveAs
