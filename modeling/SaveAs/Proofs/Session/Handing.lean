import SaveAs.Proofs.Anchor.History
import SaveAs.Proofs.FileTree.Writing
import SaveAs.Proofs.Session.Moments

/-!
# What a step hands to a saver

A step hands at most one download to one saver: as it says itself, or by a trigger whose resolver gives a
payload. Its result is then the saver's, and the events of recording documents are those of this one save.
No other step touches a recording document, but for making a new one.
-/

namespace SaveAs

/-- The download that a trigger makes of a handle, if that resolves. -/
def Trigger.download? (t : Trigger) (handle : String) (source : Session.Source) (s : Session.State) :
    Option Download :=
  match (Resolver.resolve handle t.resolver).result with
  | .ok payload => some (Session.handed payload t.options source s)
  | .error _ => none

namespace Session

/-- The saver that a request hands a download to, with the download. -/
def handed? (s : State) (r : Request) : Option (Saver × Download) :=
  match r.options.read, r.step with
  | .ok _, .save saver d => some (s.saver saver, d)
  | .ok _, .fire name handle =>
    (trigger? s name).bind fun (_, t) => (t.download? handle .generator s).map fun d => (t.saver, d)
  | .ok _, .call name function handle =>
    (function? s name function).bind fun (_, t) =>
      (t.download? handle .ambient s).map fun d => (t.saver, d)
  | .ok given, .saveBytes saver bytes =>
    some (s.saver saver, handed (Base64.encode bytes) (given.getD s.options) .ambient s)
  | _, _ => none

/-- The event of a recording document. -/
def Event.document? : Event → Option Recorder.Event
  | document e => some e
  | _ => none

variable {s s' : State} {saver : Saver} {d : Download} {events : List Event}
  {result : Except Failure Unit} {t : Trigger} {handle : String} {source : Source} {i : Nat}

/-- What recording documents have of a download that is handed to a saver. -/
def Recorded (s : State) (saver : Saver) (d : Download) (result : Except Failure Unit)
    (events : List Event) (s' : State) : Prop :=
  match saver with
  | .anchor i =>
    let o := Recorder.document.save d (s.documents.getD i {})
    result = o.result.mapError .document ∧ events.filterMap Event.document? = o.events ∧
      s'.documents = s.documents.set i o.world
  | _ => events.filterMap Event.document? = [] ∧ s'.documents = s.documents

theorem filterMap_document? (events : List Recorder.Event) :
    (events.map Event.document).filterMap Event.document? = events := by
  rw [List.filterMap_map]
  exact List.filterMap_some

theorem recorded_saveWith (saver : Saver) (d : Download) (s : State) :
    Recorded s saver d (saveWith saver d s).result (saveWith saver d s).events
      (saveWith saver d s).world := by
  cases saver with
  | record => exact ⟨rfl, rfl⟩
  | failing text => exact ⟨rfl, rfl⟩
  | anchor i => exact ⟨rfl, filterMap_document? _, rfl⟩
  | directory dir =>
    rw [saveWith]
    cases hbytes : Base64.decode d.payload with
    | error e => rw [saveToDirectory_of_undecodable hbytes]; exact ⟨rfl, rfl⟩
    | ok bytes =>
      rw [saveToDirectory_of_bytes hbytes]
      cases s.files.write s.home (dir.join d.filename) bytes <;> exact ⟨rfl, rfl⟩

/-- What is done before and after a save counts for nothing, if it has no events of documents. -/
theorem Recorded.within {s₀ : State} {before after : List Event} (h : Recorded s₀ saver d result events s')
    (hstate : s₀.documents = s.documents) (hbefore : before.filterMap Event.document? = [])
    (hafter : after.filterMap Event.document? = []) :
    Recorded s saver d result (before ++ (events ++ after)) s' := by
  cases saver <;>
    simpa only [Recorded, List.filterMap_append, hbefore, hafter, List.nil_append, List.append_nil,
      hstate] using h

theorem Recorded.moved {s'' : State} (h : Recorded s saver d result events s')
    (hstate : s''.documents = s'.documents) : Recorded s saver d result events s'' := by
  cases saver <;> simpa only [Recorded, hstate] using h

theorem closing_document? (name : String) (saved : Outcome Failure Event State Unit) :
    (Delivery.closing (fun c _ => [Event.log c]) name saved).filterMap Event.document? = [] := by
  refine List.filterMap_eq_nil_iff.2 fun e he => ?_
  rw [eq_triggered_of_mem_closing he]
  rfl

/-! ### Triggers -/

variable {r : Request} {f : Firing}

theorem handed?_of_fired (h : fired? s r = some f) :
    handed? s r = (f.trigger.download? f.handle f.source s).map fun d => (f.trigger.saver, d) := by
  cases fires_of_fired h with
  | named hread htrigger => simp only [handed?, hread, htrigger, Option.bind_some]
  | hosted hread himported => simp only [handed?, hread, himported, Option.bind_some]
  | direct hread =>
    simp only [handed?, hread]
    rfl

theorem handed?_of_unresolved {e : Failure} (h : fired? s r = some f)
    (hresolved : f.resolved.result = .error e) : handed? s r = none := by
  rw [Firing.resolved] at hresolved
  rw [handed?_of_fired h, Trigger.download?, hresolved]
  rfl

theorem handed?_of_resolved {payload : String} (h : fired? s r = some f)
    (hresolved : f.resolved.result = .ok payload) :
    handed? s r = some (f.trigger.saver, f.handed payload s) := by
  rw [Firing.resolved] at hresolved
  rw [handed?_of_fired h, Trigger.download?, hresolved]
  rfl

theorem resolved_document? (f : Firing) : f.resolved.events.filterMap Event.document? = [] := by
  refine List.filterMap_eq_nil_iff.2 fun e he => ?_
  rw [Resolver.eq_consume_of_mem he]
  rfl

theorem recorded_firing {payload : String} (h : f.resolved.result = .ok payload) (s : State) :
    Recorded s f.trigger.saver (f.handed payload s) (f.run s).result (f.run s).events
      (f.run s).world := by
  rw [Firing.run_of_resolved h]
  have hsaved := recorded_saveWith f.trigger.saver (f.handed payload s)
    (f.source.draw f.trigger.options s)
  have hbefore : (Event.log .requested :: (f.resolved.events ++
      [.log (.resolved (f.handed payload s).filename payload.utf8ByteSize)])).filterMap
        Event.document? = [] := by
    simp [List.filterMap_cons, resolved_document?, Event.document?]
  have hwithin := hsaved.within (f.source.draw_documents f.trigger.options s) hbefore
    (closing_document? (f.handed payload s).filename (f.saved payload s))
  simpa [Firing.saved] using hwithin

/-! ### Steps -/

theorem handed?_of_unfired (h : fired? s r = none) :
    handed? s r = none ∨ ∃ saver d, handed? s r = some (s.saver saver, d) ∧
      step s r = replyOf (saveWith (s.saver saver) d) s := by
  obtain ⟨source, x⟩ := r
  cases hread : source.read with
  | error e => exact .inl (by simp only [handed?, hread])
  | ok given =>
    rw [step_of_read hread]
    simp only [fired?, hread] at h
    cases x with
    | save saver d => exact .inr ⟨saver, d, by simp only [handed?, hread], rfl⟩
    | saveBytes saver bytes => cases h
    | fire name handle =>
      simp only [handed?, hread, Option.map_eq_none_iff.1 h]
      exact .inl rfl
    | call name function handle =>
      simp only [handed?, hread, Option.map_eq_none_iff.1 h]
      exact .inl rfl
    | _ => exact .inl (by simp only [handed?, hread])

/-- Whether an event belongs to a delivery. -/
def Event.ofDelivery : Event → Bool
  | log _ | consume _ | save _ | document _ => true
  | define _ _ | hook _ => false

/-- The change of the file tree that a step asks for itself. -/
def Step.change? : Step → Option FileTree.Change
  | .makeDirectory path => some (.directory (Path.home.join path))
  | .writeFile path bytes => some (.file (Path.home.join path) bytes)
  | _ => none

/-- The change of the file tree that a request asks for; it asks for nothing if its options do not read. -/
def change? (r : Request) : Option FileTree.Change :=
  match r.options.read with
  | .ok _ => r.step.change?
  | .error _ => none

/-- What a step does that neither runs a trigger nor saves a download. -/
structure Idle (s : State) (change : Option FileTree.Change) (out : Reply × State) : Prop where
  events : ∀ e ∈ out.1.events, e.ofDelivery = false
  documents : out.2.documents = s.documents ∨
    ∃ faults, out.2.documents = s.documents ++ [{ faults := faults }]
  files : out.2.files = change.elim s.files (s.files.change s.home)
  home : out.2.home = s.home

theorem step_idle (hfired : fired? s r = none) (hhanded : handed? s r = none) :
    Idle s (change? r) (step s r) := by
  have hquiet : ∀ e ∈ ([] : List Event), e.ofDelivery = false := fun e he => absurd he List.not_mem_nil
  obtain ⟨source, x⟩ := r
  cases hread : source.read with
  | error e =>
    rw [step_of_unread hread, change?, hread]
    exact ⟨hquiet, .inl rfl, rfl, rfl⟩
  | ok given =>
    rw [step_of_read hread, change?, hread]
    simp only [fired?, hread] at hfired
    simp only [handed?, hread] at hhanded
    cases x with
    | save saver d => cases hhanded
    | saveBytes saver bytes => cases hfired
    | fire name handle =>
      rw [perform, Option.map_eq_none_iff.1 hfired]
      exact ⟨hquiet, .inl rfl, rfl, rfl⟩
    | call name function handle =>
      rw [perform, Option.map_eq_none_iff.1 hfired]
      exact ⟨hquiet, .inl rfl, rfl, rfl⟩
    | setOptions =>
      simp only [perform, replyOf, setOptions]
      cases (given.getD {}).validate <;> exact ⟨hquiet, .inl rfl, rfl, rfl⟩
    | defineSaver name plan =>
      cases plan with
      | anchor faults => exact ⟨hquiet, .inr ⟨faults, rfl⟩, rfl, rfl⟩
      | _ => exact ⟨hquiet, .inl rfl, rfl, rfl⟩
    | register name saver resolver =>
      cases hrejection : (s.space name).rejection with
      | some text =>
        rw [perform_register_of_rejected hrejection]
        exact ⟨hquiet, .inl rfl, rfl, rfl⟩
      | none =>
        obtain ⟨spaces, hperform, -⟩ := perform_register_of_accepted given saver resolver hrejection
        rw [hperform]
        exact ⟨by simp [Event.ofDelivery], .inl rfl, rfl, rfl⟩
    | fireHook name =>
      rw [perform]
      cases s.hooks.get? name with
      | none => exact ⟨hquiet, .inl rfl, rfl, rfl⟩
      | some hook =>
        refine ⟨?_, .inl rfl, rfl, rfl⟩
        cases hook <;> simp [ClickHook.fire, Event.ofDelivery]
    | writeFile path bytes =>
      rw [perform]
      cases hwrite : s.files.write s.home (Path.home.join path) bytes <;>
      · refine ⟨hquiet, .inl rfl, ?_, rfl⟩
        simp only [Step.change?, Option.elim_some, FileTree.change, hwrite]
    | _ => exact ⟨hquiet, .inl rfl, rfl, rfl⟩

/-- What a step does to recording documents, by the download that it hands to a saver. -/
theorem step_handed (s : State) (r : Request) :
    match handed? s r with
    | some (saver, d) => ∃ result, (step s r).1.result = .ended result ∧
        Recorded s saver d result (step s r).1.events (step s r).2
    | none => (step s r).1.events.filterMap Event.document? = [] ∧
        ((step s r).2.documents = s.documents ∨
          ∃ faults, (step s r).2.documents = s.documents ++ [{ faults := faults }]) := by
  cases hfired : fired? s r with
  | some f =>
    obtain ⟨hresult, hevents, g, hg, hstate⟩ := step_of_fired hfired
    cases hresolved : f.resolved.result with
    | error e =>
      rw [handed?_of_unresolved hfired hresolved, hevents, hstate, hg.documents,
        Firing.run_of_unresolved hresolved]
      exact ⟨by simp [List.filterMap_cons, Event.document?, resolved_document?], .inl rfl⟩
    | ok payload =>
      rw [handed?_of_resolved hfired hresolved, hevents]
      exact ⟨_, hresult, (recorded_firing hresolved s).moved (by rw [hstate, hg.documents])⟩
  | none =>
    obtain hnone | ⟨saver, d, hhanded, hstep⟩ := handed?_of_unfired hfired
    · have hidle := step_idle hfired hnone
      rw [hnone]
      refine ⟨List.filterMap_eq_nil_iff.2 fun e he => ?_, hidle.documents⟩
      have := hidle.events e he
      cases e <;> first | rfl | cases this
    · rw [hhanded, hstep]
      exact ⟨_, rfl, recorded_saveWith (s.saver saver) d s⟩

end Session

end SaveAs
