import SaveAs.Proofs.Session.Running
import SaveAs.Session.Step

/-!
# Triggers in their places

A trigger is reached by a name of its own or as the function of a namespace. Each step puts one new
trigger into one place, runs the trigger of one place, or leaves all of them. What a place has after a
run therefore follows from the requests alone: the trigger that was put there last, and the handles it
was run on since.
-/

namespace SaveAs.Session

/-- Where a trigger is reached from. -/
inductive Slot
  | named (name : String)
  /-- The function of a namespace. -/
  | imported (name : String)
  deriving DecidableEq

/-- A namespace by name; one that does not exist takes definitions and has none. -/
def State.space (s : State) (name : String) : Namespace :=
  (s.namespaces.get? name).getD {}

def State.number? (s : State) : Slot → Option Nat
  | .named name => s.triggerNames.get? name
  | .imported name => (s.space name).functions.get? importName

/-- The trigger in a place, with its number. -/
def State.occupant? (s : State) (slot : Slot) : Option (Nat × Trigger) :=
  (s.number? slot).bind fun i => s.triggers[i]?.map fun t => (i, t)

/-- The trigger that a request puts into a place. A namespace that fails definitions takes none. -/
def built? (s : State) (r : Request) : Option (Slot × Trigger) :=
  match r.options.read, r.step with
  | .ok given, .buildTrigger name saver resolver =>
    some (.named name, ⟨resolver, s.saver saver, given.getD s.options⟩)
  | .ok given, .register name saver resolver =>
    match (s.space name).rejection with
    | none => some (.imported name, ⟨resolver, s.saver saver, given.getD s.options⟩)
    | some _ => none
  | _, _ => none

/-- The place whose trigger a request runs, and the handle that it is run on. -/
def ran? (r : Request) : Option (Slot × String) :=
  match r.options.read, r.step with
  | .ok _, .fire name handle => some (.named name, handle)
  | .ok _, .call name function handle =>
    if function = importName then some (.imported name, handle) else none
  | _, _ => none

/-- No two places share a trigger, and namespaces have functions under the import name only. -/
structure State.WellPlaced (s : State) : Prop where
  bound : ∀ {slot i}, s.number? slot = some i → i < s.triggers.length
  apart : ∀ {slot slot' i}, s.number? slot = some i → s.number? slot' = some i → slot = slot'
  imports : ∀ name, (s.space name).functions.names = [] ∨ (s.space name).functions.names = [importName]

/-- The state without triggers and namespaces. Sessions start like this, whatever words, savers and files
there are. -/
def State.cleared (s : State) : State :=
  { s with triggers := [], triggerNames := ∅, namespaces := ∅ }

theorem wellPlaced_cleared (s : State) : s.cleared.WellPlaced where
  bound {slot i} h := by cases slot <;> cases h
  apart {slot slot' i} h _ := by cases slot <;> cases h
  imports _ := .inl rfl

/-! ### What one step does -/

/-- What a step does to the triggers and their places. -/
inductive Effect (s : State) (r : Request) (s' : State) : Prop
  | placed (slot : Slot) (t : Trigger) (hbuilt : built? s r = some (slot, t))
    (triggers : s'.triggers = s.triggers ++ [t])
    (numbers : ∀ k, s'.number? k = if k = slot then some s.triggers.length else s.number? k)
  | used (slot : Slot) (handle : String) (i : Nat) (t : Trigger) (hbuilt : built? s r = none)
    (hran : ran? r = some (slot, handle)) (hslot : s.occupant? slot = some (i, t))
    (triggers : s'.triggers = s.triggers.set i (t.used handle))
    (numbers : ∀ k, s'.number? k = s.number? k)
  | kept (hbuilt : built? s r = none)
    (hran : ∀ slot handle, ran? r = some (slot, handle) → s.occupant? slot = none)
    (triggers : s'.triggers = s.triggers) (numbers : ∀ k, s'.number? k = s.number? k)

theorem trigger?_eq (s : State) (name : String) : trigger? s name = s.occupant? (.named name) := by
  rw [trigger?, State.occupant?, State.number?]
  cases s.triggerNames.get? name with
  | none => rfl
  | some i => cases h : s.triggers[i]? <;> simp [h]

theorem function?_eq (s : State) (name function : String) :
    function? s name function =
      ((s.space name).functions.get? function).bind fun i => s.triggers[i]?.map fun t => (i, t) := by
  rw [function?, State.space]
  cases s.namespaces.get? name with
  | none => rfl
  | some space =>
    show (space.functions.get? function).bind _ = (space.functions.get? function).bind _
    cases space.functions.get? function with
    | none => rfl
    | some i => cases h : s.triggers[i]? <;> simp [h]

theorem function?_importName (s : State) (name : String) :
    function? s name importName = s.occupant? (.imported name) :=
  function?_eq s name importName

theorem State.WellPlaced.function?_of_ne {s : State} (hs : s.WellPlaced) {name function : String}
    (h : function ≠ importName) : function? s name function = none := by
  have hnone : (s.space name).functions.get? function = none := by
    rw [Table.get?_eq_none_iff]
    obtain hnames | hnames := hs.imports name <;> simp [hnames, h]
  rw [function?_eq, hnone]
  rfl

theorem imports_eq (s : State) (name : String) :
    imports s name = (s.space name).functions.names.mergeSort fun a b => !decide (b < a) := by
  rw [imports, State.space]
  cases s.namespaces.get? name <;> rfl

variable {s s' : State} {r : Request} {slot : Slot} {i : Nat} {t : Trigger} {name : String}
  {given : Option Options} {x : Step}

theorem occupant?_eq_some_iff :
    s.occupant? slot = some (i, t) ↔ s.number? slot = some i ∧ s.triggers[i]? = some t := by
  rw [State.occupant?]
  cases s.number? slot with
  | none => simp
  | some j =>
    simp only [Option.bind_some, Option.map_eq_some_iff, Prod.mk.injEq, Option.some.injEq]
    constructor
    · rintro ⟨u, hu, rfl, rfl⟩
      exact ⟨rfl, hu⟩
    · rintro ⟨rfl, hu⟩
      exact ⟨t, hu, rfl, rfl⟩

theorem getElem?_of_trigger? (h : trigger? s name = some (i, t)) : s.triggers[i]? = some t := by
  rw [trigger?_eq] at h
  exact (occupant?_eq_some_iff.1 h).2

theorem getElem?_of_function? {function : String} (h : function? s name function = some (i, t)) :
    s.triggers[i]? = some t := by
  rw [function?_eq] at h
  obtain ⟨j, -, hj⟩ := Option.bind_eq_some_iff.1 h
  obtain ⟨u, hu, heq⟩ := Option.map_eq_some_iff.1 hj
  cases heq
  exact hu

theorem SameTriggers.space (h : SameTriggers s s') (name : String) : s'.space name = s.space name := by
  rw [State.space, h.namespaces, State.space]

theorem SameTriggers.number? (h : SameTriggers s s') (k : Slot) : s'.number? k = s.number? k := by
  cases k with
  | named name => rw [State.number?, State.number?, h.triggerNames]
  | imported name => rw [State.number?, State.number?, h.space]

/-- Whether a step builds, runs or places triggers, or is about a namespace. -/
def Step.placing : Step → Bool
  | .buildTrigger .. | .fire .. | .setNamespace .. | .register .. | .call .. => true
  | _ => false

theorem perform_sameTriggers (given : Option Options) (s : State) (h : x.placing = false) :
    SameTriggers s (perform given x s).2 := by
  cases x with
  | buildTrigger | fire | setNamespace | register | call => cases h
  | save saver d => exact sameTriggers_of_blind (fun _ hf => hf.saveWith _ d) s
  | saveBytes saver bytes => exact sameTriggers_of_blind (fun _ hf => hf.saveBytes bytes _ _) s
  | setOptions =>
    rw [perform, setOptions]
    cases (given.getD {}).validate <;> exact ⟨rfl, rfl, rfl⟩
  | defineSaver name plan => cases plan <;> exact ⟨rfl, rfl, rfl⟩
  | writeFile path bytes =>
    rw [perform]
    split <;> exact ⟨rfl, rfl, rfl⟩
  | fireHook name =>
    rw [perform]
    split <;> exact ⟨rfl, rfl, rfl⟩
  | _ => exact ⟨rfl, rfl, rfl⟩

/-- A trigger that is run changes in its place, and no place changes. -/
theorem fire_effect (hi : s.triggers[i]? = some t) (handle : String) (source : Source) :
    (fire i t handle source s).world.triggers = s.triggers.set i (t.used handle) ∧
      (∀ k, (fire i t handle source s).world.number? k = s.number? k) ∧
      ∀ name, (fire i t handle source s).world.space name = s.space name := by
  have hsame := run_sameTriggers t handle source s
  rw [fire_of_trigger hi]
  refine ⟨?_, hsame.number?, hsame.space⟩
  show (t.run handle source s).world.triggers.modify i _ = _
  rw [hsame.triggers]
  refine List.ext_getElem? fun j => ?_
  rw [List.getElem?_modify, List.getElem?_set]
  by_cases hj : i = j
  · subst hj
    obtain ⟨hlt, ht⟩ := List.getElem?_eq_some_iff.1 hi
    simp [hlt, ht, Trigger.used]
  · simp [hj]

/-! ### Namespaces -/

def spaceAfter (s : State) (r : Request) (name : String) : Namespace :=
  match r.options.read, r.step with
  | .ok _, .setNamespace n rejection =>
    if name = n then { s.space n with rejection := rejection } else s.space name
  | .ok _, .register n _ _ =>
    if name = n ∧ (s.space n).rejection = none then
      { s.space n with functions := (s.space n).functions.set importName s.triggers.length }
    else s.space name
  | _, _ => s.space name

theorem space_of_set {spaces : Table Namespace} {space : Namespace}
    (h : s.namespaces = spaces.set name space) (k : String) :
    s.space k = if k = name then space else (spaces.get? k).getD {} := by
  rw [State.space, h, Table.get?_set]
  split <;> rfl

theorem exists_ensureNamespace (s : State) (name : String) :
    ∃ spaces, ensureNamespace s name = { s with namespaces := spaces } ∧
      spaces.get? name = some (s.space name) ∧ ∀ k, (spaces.get? k).getD {} = s.space k := by
  rw [ensureNamespace, Table.contains]
  cases hspace : s.namespaces.get? name with
  | none =>
    have hfresh : s.space name = {} := by rw [State.space, hspace]; rfl
    refine ⟨s.namespaces.set name {}, rfl, ?_, fun k => ?_⟩
    · rw [Table.get?_set_self, hfresh]
    · rw [Table.get?_set]
      split
      · rename_i hk
        rw [hk, hfresh]
        rfl
      · rfl
  | some space =>
    refine ⟨s.namespaces, rfl, ?_, fun _ => rfl⟩
    rw [State.space, hspace]
    rfl

variable {saver text : String} {resolver : Resolver}

theorem perform_register_of_rejected (h : (s.space name).rejection = some text) :
    perform given (.register name saver resolver) s =
      ({ result := .registered (.error (.rejected text)) (imports s name) }, s) := by
  cases hspace : s.namespaces.get? name with
  | none => simp [State.space, hspace] at h
  | some space =>
    have hstays : ensureNamespace s name = s := by
      rw [ensureNamespace, Table.contains, hspace]
      rfl
    have htext : space.rejection = some text := by
      rwa [State.space, hspace] at h
    simp only [perform, hstays, register, hspace, Option.getD_some, htext]

/-- A register in a namespace that takes definitions. The trigger that was the function before stays in
the list of all triggers, where nothing leads to it. -/
theorem perform_register_of_accepted (given : Option Options) (saver : String) (resolver : Resolver)
    (h : (s.space name).rejection = none) :
    ∃ spaces,
      let s' := { s with
        triggers := s.triggers ++ [⟨resolver, s.saver saver, given.getD s.options⟩]
        namespaces := spaces }
      perform given (.register name saver resolver) s =
        ({ result := .registered (.ok ()) (imports s' name)
           events := [.define importName (s.number? (.imported name)).isSome] }, s') ∧
      ∀ k, s'.space k =
        if k = name then
          { s.space name with functions := (s.space name).functions.set importName s.triggers.length }
        else s.space k := by
  obtain ⟨spaces, hensure, hself, hspace⟩ := exists_ensureNamespace s name
  refine ⟨spaces.set name { s.space name with
    functions := (s.space name).functions.set importName s.triggers.length }, ?_, fun k => ?_⟩
  · simp only [perform, hensure, register, hself, Option.getD_some, h]
    rfl
  · rw [space_of_set rfl, hspace]

theorem step_of_read {source : Options.Source} (h : source.read = .ok given) (x : Step) :
    step s ⟨source, x⟩ = perform given x s := by
  rw [step, h]

theorem step_of_unread {source : Options.Source} {e : Options.ReadError} (h : source.read = .error e)
    (x : Step) : step s ⟨source, x⟩ = ({ result := .unread e }, s) := by
  rw [step, h]

theorem step_space (s : State) (r : Request) (name : String) :
    (step s r).2.space name = spaceAfter s r name := by
  obtain ⟨source, x⟩ := r
  cases hread : source.read with
  | error e => rw [step_of_unread hread, spaceAfter, hread]
  | ok given =>
    rw [step_of_read hread, spaceAfter, hread]
    cases hplacing : x.placing with
    | false =>
      rw [(perform_sameTriggers given s hplacing).space]
      cases x <;> first | rfl | cases hplacing
    | true =>
      cases x with
      | buildTrigger other saver resolver => rfl
      | fire other handle =>
        rw [perform, trigger?_eq]
        cases hslot : s.occupant? (.named other) with
        | none => rfl
        | some u => exact (fire_effect (occupant?_eq_some_iff.1 hslot).2 handle _).2.2 name
      | call other function handle =>
        rw [perform, function?_eq]
        cases (s.space other).functions.get? function with
        | none => rfl
        | some i =>
          rw [Option.bind_some]
          cases ht : s.triggers[i]? with
          | none => rfl
          | some t => exact (fire_effect ht handle _).2.2 name
      | setNamespace other rejection => exact space_of_set rfl name
      | register other saver resolver =>
        cases hrejection : (s.space other).rejection with
        | some text =>
          rw [perform_register_of_rejected hrejection]
          exact (if_neg (by simp [hrejection])).symm
        | none =>
          obtain ⟨spaces, hperform, hspace⟩ :=
            perform_register_of_accepted given saver resolver hrejection
          rw [hperform, hspace]
          simp only [hrejection, and_true]
      | _ => cases hplacing

/-! ### The effect of a step -/

theorem Effect.of_sameTriggers (hbuilt : built? s r = none) (hran : ran? r = none)
    (h : SameTriggers s s') : Effect s r s' :=
  .kept hbuilt (fun _ _ hslot => absurd (hran.symm.trans hslot) (by simp)) h.triggers h.number?

theorem effect_of_run {handle : String} (source : Source) (hbuilt : built? s r = none)
    (hran : ran? r = some (slot, handle)) (h : s.occupant? slot = some (i, t)) :
    Effect s r (fire i t handle source s).world := by
  obtain ⟨htriggers, hnumbers, -⟩ := fire_effect (occupant?_eq_some_iff.1 h).2 handle source
  exact .used slot handle i t hbuilt hran h htriggers hnumbers

theorem step_effect (hs : s.WellPlaced) (r : Request) : Effect s r (step s r).2 := by
  have hspace := step_space s r
  obtain ⟨source, x⟩ := r
  cases hread : source.read with
  | error e =>
    rw [step_of_unread hread]
    exact .of_sameTriggers (by rw [built?, hread]) (by rw [ran?, hread]) ⟨rfl, rfl, rfl⟩
  | ok given =>
    rw [step_of_read hread] at hspace ⊢
    have himported : ∀ name, (perform given x s).2.number? (.imported name) =
        (spaceAfter s ⟨source, x⟩ name).functions.get? importName := by
      intro name
      rw [State.number?, hspace]
    cases hplacing : x.placing with
    | false =>
      refine .of_sameTriggers ?_ ?_ (perform_sameTriggers given s hplacing)
      · rw [built?, hread]
        cases x <;> first | rfl | cases hplacing
      · rw [ran?, hread]
        cases x <;> first | rfl | cases hplacing
    | true =>
      cases x with
      | buildTrigger name saver resolver =>
        refine .placed (.named name) _ (by rw [built?, hread]) rfl fun k => ?_
        cases k with
        | named other => simp [perform, State.number?, Table.get?_set]
        | imported other => rfl
      | setNamespace name rejection =>
        refine .kept (by rw [built?, hread]) (by simp [ran?, hread]) rfl fun k => ?_
        cases k with
        | named other => rfl
        | imported other =>
          simp only [himported, spaceAfter, hread]
          by_cases h : other = name
          · rw [if_pos h, h]; rfl
          · rw [if_neg h]; rfl
      | fire name handle =>
        have hran : ran? ⟨source, .fire name handle⟩ = some (.named name, handle) := by
          rw [ran?, hread]
        have hbuilt : built? s ⟨source, .fire name handle⟩ = none := by rw [built?, hread]
        rw [perform, trigger?_eq]
        cases hslot : s.occupant? (.named name) with
        | none => exact .kept hbuilt (by simp [hran, hslot]) rfl fun _ => rfl
        | some u => exact effect_of_run .generator hbuilt hran hslot
      | call name function handle =>
        have hbuilt : built? s ⟨source, .call name function handle⟩ = none := by rw [built?, hread]
        by_cases hfunction : function = importName
        · subst hfunction
          have hran : ran? ⟨source, .call name importName handle⟩ = some (.imported name, handle) := by
            rw [ran?, hread]
            exact if_pos rfl
          rw [perform, function?_importName]
          cases hslot : s.occupant? (.imported name) with
          | none => exact .kept hbuilt (by simp [hran, hslot]) rfl fun _ => rfl
          | some u => exact effect_of_run .ambient hbuilt hran hslot
        · have hran : ran? ⟨source, .call name function handle⟩ = none := by
            rw [ran?, hread]
            exact if_neg hfunction
          rw [perform, hs.function?_of_ne hfunction]
          exact .of_sameTriggers hbuilt hran ⟨rfl, rfl, rfl⟩
      | register name saver resolver =>
        cases hrejection : (s.space name).rejection with
        | some text =>
          rw [perform_register_of_rejected hrejection]
          exact .of_sameTriggers (by simp [built?, hread, hrejection]) (by rw [ran?, hread])
            ⟨rfl, rfl, rfl⟩
        | none =>
          obtain ⟨spaces, hperform, -⟩ := perform_register_of_accepted given saver resolver hrejection
          rw [hperform] at himported ⊢
          refine .placed (.imported name) _ (by simp only [built?, hread, hrejection]) rfl fun k => ?_
          cases k with
          | named other => rfl
          | imported other =>
            simp only [himported, spaceAfter, hread, hrejection, and_true, Slot.imported.injEq]
            by_cases h : other = name
            · rw [if_pos h, if_pos h]
              exact Table.get?_set_self _ _ _
            · rw [if_neg h, if_neg h]
              rfl
      | _ => cases hplacing

theorem names_set_importName {functions : Table Nat}
    (h : functions.names = [] ∨ functions.names = [importName]) (i : Nat) :
    (functions.set importName i).names = [importName] := by
  rw [Table.names_set]
  obtain h | h := h <;> rw [h]
  · rfl
  · exact if_pos (List.mem_singleton_self _)

theorem spaceAfter_imports (hs : s.WellPlaced) (r : Request) (name : String) :
    (spaceAfter s r name).functions.names = [] ∨
      (spaceAfter s r name).functions.names = [importName] := by
  rw [spaceAfter]
  split
  · split
    · exact hs.imports _
    · exact hs.imports name
  · split
    · exact .inr (names_set_importName (hs.imports _) _)
    · exact hs.imports name
  · exact hs.imports name

/-- A step that places a trigger numbers it past all others, so that no two places come to share one. -/
theorem step_wellPlaced (hs : s.WellPlaced) (r : Request) : (step s r).2.WellPlaced where
  bound {slot i} h := by
    cases step_effect hs r with
    | placed k t _ htriggers hnumbers =>
      rw [htriggers, List.length_append, List.length_singleton]
      rw [hnumbers] at h
      split at h
      · obtain rfl := Option.some.inj h
        omega
      · have := hs.bound h
        omega
    | used k handle j t _ _ _ htriggers hnumbers =>
      rw [htriggers, List.length_set]
      exact hs.bound (hnumbers slot ▸ h)
    | kept _ _ htriggers hnumbers =>
      rw [htriggers]
      exact hs.bound (hnumbers slot ▸ h)
  apart {slot slot' i} h h' := by
    cases step_effect hs r with
    | placed k t _ _ hnumbers =>
      rw [hnumbers] at h h'
      split at h <;> split at h'
      · simp_all
      · obtain rfl := Option.some.inj h
        exact absurd (hs.bound h') (Nat.lt_irrefl _)
      · obtain rfl := Option.some.inj h'
        exact absurd (hs.bound h) (Nat.lt_irrefl _)
      · exact hs.apart h h'
    | used k handle j t _ _ _ _ hnumbers => exact hs.apart (hnumbers slot ▸ h) (hnumbers slot' ▸ h')
    | kept _ _ _ hnumbers => exact hs.apart (hnumbers slot ▸ h) (hnumbers slot' ▸ h')
  imports name := by
    rw [step_space]
    exact spaceAfter_imports hs r name

theorem run_append (s : State) (xs ys : List Request) :
    (run s (xs ++ ys)).2 = (run (run s xs).2 ys).2 := by
  induction xs generalizing s with
  | nil => rfl
  | cons r rest ih => exact ih (step s r).2

theorem run_wellPlaced (hs : s.WellPlaced) (requests : List Request) :
    (run s requests).2.WellPlaced := by
  induction requests generalizing s with
  | nil => exact hs
  | cons r rest ih => exact ih (step_wellPlaced hs r)

end SaveAs.Session
