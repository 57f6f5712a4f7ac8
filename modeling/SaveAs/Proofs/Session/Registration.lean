import SaveAs.Proofs.Session.Tenancy

/-!
# Registrations

A namespace holds one function, and the last registration that it accepted says which. The history of
its place is compared with what a session answers: the list of its functions, the replies to further
registrations, and those to calls.
-/

namespace SaveAs.Session

/-- The text that a namespace fails definitions with, after a request that may set it. -/
def rejectionAfter (name : String) (current : Option String) (r : Request) : Option String :=
  match r.options.read, r.step with
  | .ok _, .setNamespace n rejection => if name = n then rejection else current
  | _, _ => current

/-- What the requests of a session make of a namespace: the trigger of the last registration that it
accepted, and the handles that its function was called with since. -/
def registered? (start : State) (name : String) (requests : List Request) : Option Tenancy :=
  tenancy? (.imported name) start.cleared none requests

variable {s : State} {r : Request} {name : String} {given : Option Options} {p : Option Tenancy}
  {source : Options.Source}

theorem spaceAfter_rejection (s : State) (r : Request) (name : String) :
    (spaceAfter s r name).rejection = rejectionAfter name (s.space name).rejection r := by
  obtain ⟨source, x⟩ := r
  cases hread : source.read with
  | error e => simp only [spaceAfter, rejectionAfter, hread]
  | ok given =>
    cases x with
    | setNamespace other rejection =>
      simp only [spaceAfter, rejectionAfter, hread]
      split <;> rfl
    | register other saver resolver =>
      simp only [spaceAfter, rejectionAfter, hread]
      split
      · rename_i h
        rw [h.1]
      · rfl
    | _ => simp only [spaceAfter, rejectionAfter, hread]

/-- Whether a namespace accepts is decided by the last request that was about that. -/
theorem rejection_run (s : State) (requests : List Request) (name : String) :
    ((run s requests).2.space name).rejection =
      requests.foldl (rejectionAfter name) (s.space name).rejection := by
  induction requests generalizing s with
  | nil => rfl
  | cons r rest ih =>
    have hstep : ((step s r).2.space name).rejection = rejectionAfter name (s.space name).rejection r := by
      rw [step_space, spaceAfter_rejection]
    rw [List.foldl_cons, ← hstep]
    exact ih (step s r).2

theorem tenant?_registered (start : State) (name : String) (requests : List Request) :
    (run start.cleared requests).2.tenant? (.imported name) =
      (registered? start name requests).map Tenancy.now :=
  tenant?_run (wellPlaced_cleared start) requests rfl

/-! ### What a namespace has -/

theorem imports_eq_of_wellPlaced (hs : s.WellPlaced) (name : String) :
    imports s name = if (s.number? (.imported name)).isSome then [importName] else [] := by
  rw [imports_eq, State.number?]
  obtain hnames | hnames := hs.imports name
  · have hnone : (s.space name).functions.get? importName = none := by
      rw [Table.get?_eq_none_iff, hnames]
      exact List.not_mem_nil
    rw [hnames, hnone]
    exact List.mergeSort_nil
  · have hsome : (s.space name).functions.get? importName ≠ none := by
      rw [Ne, Table.get?_eq_none_iff, hnames]
      simp
    rw [hnames, if_pos (Option.isSome_iff_ne_none.2 hsome)]
    exact List.mergeSort_singleton _

theorem isSome_number? (hs : s.WellPlaced) (slot : Slot) :
    (s.number? slot).isSome = (s.tenant? slot).isSome := by
  rw [tenant?_of_number]
  cases hnumber : s.number? slot with
  | none => rfl
  | some i =>
    rw [Option.bind_some, List.getElem?_eq_getElem (hs.bound hnumber)]
    rfl

theorem number?_registered (start : State) (name : String) (requests : List Request) :
    ((run start.cleared requests).2.number? (.imported name)).isSome =
      (registered? start name requests).isSome := by
  have hs := run_wellPlaced (wellPlaced_cleared start) requests
  rw [isSome_number? hs, tenant?_registered, Option.isSome_map]

theorem function?_registered (start : State) (name function : String) (requests : List Request) :
    (function? (run start.cleared requests).2 name function).map (·.2) =
      if function = importName then (registered? start name requests).map Tenancy.now else none := by
  have hs := run_wellPlaced (wellPlaced_cleared start) requests
  split
  · rename_i h
    rw [h, function?_importName]
    exact tenant?_registered start name requests
  · rename_i h
    rw [hs.function?_of_ne h]
    rfl

/-! ### Registering once more -/

theorem built?_register_of_accepted {saver : String} {resolver : Resolver}
    (hread : source.read = .ok given) (h : (s.space name).rejection = none) :
    built? s ⟨source, .register name saver resolver⟩ =
      some (.imported name, ⟨resolver, s.saver saver, given.getD s.options⟩) := by
  simp only [built?, hread, h]

theorem tenancyAfter_register_of_rejected {saver text : String} {resolver : Resolver} (slot : Slot)
    (hread : source.read = .ok given) (h : (s.space name).rejection = some text) :
    tenancyAfter slot s ⟨source, .register name saver resolver⟩ p = p := by
  simp only [tenancyAfter, built?, ran?, hread, h]

theorem step_register_of_accepted (hs : s.WellPlaced) (saver : String) (resolver : Resolver)
    (hread : source.read = .ok given) (h : (s.space name).rejection = none) :
    (step s ⟨source, .register name saver resolver⟩).1 =
      { result := .registered (.ok ()) [importName]
        events := [.define importName (s.number? (.imported name)).isSome] } := by
  obtain ⟨spaces, hperform, hspace⟩ := perform_register_of_accepted given saver resolver h
  rw [step_of_read hread, hperform]
  simp only [imports_eq, hspace, if_pos, names_set_importName (hs.imports name),
    List.mergeSort_singleton]

/-! ### Calling -/

/-- A call of a function that is there answers as its trigger does by itself. -/
theorem step_call_of_function {t : Trigger} {function : String} (handle : String)
    (hread : source.read = .ok given) (h : (function? s name function).map (·.2) = some t) :
    ∃ i, s.triggers[i]? = some t ∧
      step s ⟨source, .call name function handle⟩ =
        ({ result := .ended (t.run handle .ambient s).result
           events := (t.run handle .ambient s).events
           naming := some t.options },
         (t.run handle .ambient s).world.setResolver i (t.used handle).resolver) := by
  obtain ⟨⟨i, u⟩, hfunction, rfl⟩ := Option.map_eq_some_iff.1 h
  have hu : s.triggers[i]? = some u := getElem?_of_function? hfunction
  refine ⟨i, hu, ?_⟩
  have hfire := fire_of_trigger hu handle .ambient
  have hreply : step s ⟨source, .call name function handle⟩ =
      ({ result := .ended (fire i u handle .ambient s).result
         events := (fire i u handle .ambient s).events
         naming := some u.options }, (fire i u handle .ambient s).world) := by
    rw [step_of_read hread, perform, hfunction]
    rfl
  rw [hreply, hfire]
  rfl

theorem step_call_of_none {function : String} (handle : String) (hread : source.read = .ok given)
    (h : (function? s name function).map (·.2) = none) :
    step s ⟨source, .call name function handle⟩ = ({ result := .missing }, s) := by
  rw [step_of_read hread, perform, Option.map_eq_none_iff.1 h]

/-! ### The law -/

theorem registered?_snoc (start : State) (name : String) (requests : List Request) (r : Request) :
    registered? start name (requests ++ [r]) =
      tenancyAfter (.imported name) (run start.cleared requests).2 r (registered? start name requests) :=
  tenancy?_append _ _ _ _ _

/-- The trigger of a namespace was put there by one registration, with none accepted after it. -/
theorem exists_registration {start : State} {requests : List Request} {q : Tenancy}
    (h : registered? start name requests = some q) :
    ∃ before r after, requests = before ++ r :: after ∧
      built? (run start.cleared before).2 r = some (.imported name, q.trigger) ∧
      Unbuilt (.imported name) (run start.cleared (before ++ [r])).2 after := by
  obtain hbuilt | ⟨⟨q₀, hnone, -⟩, -⟩ := exists_built_or_unbuilt h
  · exact hbuilt
  · cases hnone

theorem step_call_registered {start : State} {requests : List Request} {q : Tenancy} (handle : String)
    (hread : source.read = .ok given) (h : registered? start name requests = some q) :
    let s := (run start.cleared requests).2
    let r : Request := ⟨source, .call name importName handle⟩
    let alone := q.now.run handle .ambient s
    (step s r).1 =
        { result := .ended alone.result
          events := alone.events
          naming := some q.trigger.options } ∧
      (step s r).2.documents = alone.world.documents ∧
      (step s r).2.files = alone.world.files ∧
      (step s r).2.ambient = alone.world.ambient ∧
      registered? start name (requests ++ [r]) = some (q.run handle) := by
  intro s r alone
  have hfunction : (function? s name importName).map (·.2) = some q.now := by
    rw [function?_registered, if_pos rfl, h]
    rfl
  obtain ⟨i, -, hstep⟩ := step_call_of_function handle hread hfunction
  have hoptions : q.now.options = q.trigger.options := by
    obtain ⟨resolver, hnow⟩ := q.now_eq
    rw [hnow]
  have hafter : tenancyAfter (.imported name) s r (some q) = some (q.run handle) := by
    simp only [tenancyAfter, built?, ran?, r, hread, if_pos, Option.map_some]
  refine ⟨?_, ?_, ?_, ?_, ?_⟩
  · rw [hstep, hoptions]
  · rw [hstep]
    rfl
  · rw [hstep]
    rfl
  · rw [hstep]
    rfl
  · rw [registered?_snoc, h]
    exact hafter

/-- What a namespace offers is the trigger of the last registration that it accepted, and nothing before
the first. A rejected registration says why and changes nothing; an accepted one tells whether it
replaces another; a call does what that trigger does by itself. -/
theorem last_accepted_registration_wins (start : State) (requests : List Request) (name : String) :
    let s := (run start.cleared requests).2
    let current := registered? start name requests
    (current = none → Unbuilt (.imported name) start.cleared requests) ∧
    (∀ p, current = some p → ∃ before r after, requests = before ++ r :: after ∧
      built? (run start.cleared before).2 r = some (.imported name, p.trigger) ∧
      Unbuilt (.imported name) (run start.cleared (before ++ [r])).2 after) ∧
    imports s name = (if current.isSome then [importName] else []) ∧
    (∀ function, (function? s name function).map (·.2) =
      if function = importName then current.map Tenancy.now else none) ∧
    (∀ source given saver resolver, source.read = .ok given →
      let r : Request := ⟨source, .register name saver resolver⟩
      match requests.foldl (rejectionAfter name) none with
      | some text =>
        step s r = ({ result := .registered (.error (.rejected text)) (imports s name) }, s) ∧
          registered? start name (requests ++ [r]) = current
      | none =>
        (step s r).1 =
            { result := .registered (.ok ()) [importName]
              events := [.define importName current.isSome] } ∧
          registered? start name (requests ++ [r]) =
            some { trigger := ⟨resolver, s.saver saver, given.getD s.options⟩ }) ∧
    (∀ source given function handle, source.read = .ok given →
      let r : Request := ⟨source, .call name function handle⟩
      match (if function = importName then current else none) with
      | none => step s r = ({ result := .missing }, s)
      | some p =>
        let alone := p.now.run handle .ambient s
        (step s r).1 =
            { result := .ended alone.result
              events := alone.events
              naming := some p.trigger.options } ∧
          (step s r).2.documents = alone.world.documents ∧
          (step s r).2.files = alone.world.files ∧
          (step s r).2.ambient = alone.world.ambient ∧
          registered? start name (requests ++ [r]) = some (p.run handle)) := by
  intro s current
  have hs : s.WellPlaced := run_wellPlaced (wellPlaced_cleared start) requests
  have hrejection : (s.space name).rejection = requests.foldl (rejectionAfter name) none :=
    rejection_run start.cleared requests name
  refine ⟨fun h => (unbuilt_of_none h).1, fun p h => exists_registration h, ?_,
    fun function => function?_registered start name function requests, ?_, ?_⟩
  · rw [imports_eq_of_wellPlaced hs, number?_registered]
  · intro source given saver resolver hread r
    split
    · rename_i text htext
      rw [← hrejection] at htext
      refine ⟨?_, ?_⟩
      · rw [step_of_read hread, perform_register_of_rejected htext]
      · rw [registered?_snoc]
        exact tenancyAfter_register_of_rejected _ hread htext
    · rename_i hnone
      rw [← hrejection] at hnone
      refine ⟨?_, ?_⟩
      · rw [step_register_of_accepted hs saver resolver hread hnone, number?_registered]
      · rw [registered?_snoc, tenancyAfter, built?_register_of_accepted hread hnone]
        exact if_pos rfl
  · intro source given function handle hread r
    have hfunction : (function? s name function).map (·.2) =
        (if function = importName then current else none).map Tenancy.now := by
      rw [function?_registered]
      split <;> rfl
    cases hoffered : (if function = importName then current else none) with
    | none =>
      rw [hoffered] at hfunction
      exact step_call_of_none handle hread hfunction
    | some q =>
      obtain ⟨rfl, hcurrent⟩ := Option.ite_none_right_eq_some.1 hoffered
      exact step_call_registered handle hread hcurrent

/-- A namespace that closes after one registration, whose saver's name then means another saver. -/
theorem first_registration_stays :
    let s := (run {} [⟨.absent, .register "env" "saver" .inline⟩,
      ⟨.absent, .setNamespace "env" (some "closed")⟩,
      ⟨.absent, .defineSaver "saver" (.failing "late")⟩]).2
    step s ⟨.absent, .register "env" "saver" (.failing "late")⟩ =
        ({ result := .registered (.error (.rejected "closed")) [importName] }, s) ∧
      (step s ⟨.absent, .call "env" importName "text"⟩).1.events =
        [.log .requested, .log (.resolved "out0.png" 4), .save ⟨"text", "image/png", "out0.png"⟩,
          .log (.triggered "out0.png")] := by
  intro s
  obtain ⟨-, -, himports, -, hregister, hcall⟩ := last_accepted_registration_wins {}
    [⟨.absent, .register "env" "saver" .inline⟩, ⟨.absent, .setNamespace "env" (some "closed")⟩,
      ⟨.absent, .defineSaver "saver" (.failing "late")⟩] "env"
  have hregistered := (hregister .absent none "saver" (.failing "late") rfl).1
  rw [himports] at hregistered
  refine ⟨hregistered, ?_⟩
  have hcalled := (hcall .absent none importName "text" rfl).1
  exact (congrArg Reply.events hcalled).trans (by decide +kernel)

end SaveAs.Session
