import SaveAs.Proofs.Interleaving
import SaveAs.Proofs.Session.Moments
import SaveAs.Proofs.Session.Tenancy

/-!
# Stored options of a session

The stored options are read where a trigger is built or registered without options of its own, and where
bytes are saved without any. Every other step does the same whatever is stored, so a trigger that is
there keeps to the options that it was built with.
-/

namespace SaveAs.Session

def State.withOptions (s : State) (o : Options) : State := { s with options := o }

theorem Unseen.withOptions (o : Options) : Unseen (·.withOptions o) := by
  constructor <;> intros <;> rfl

def Step.changesOptions : Step → Bool
  | .setOptions => true
  | _ => false

/-- Whether a step asks for the stored options. -/
def Step.tellsOptions : Step → Bool
  | .getOptions => true
  | _ => false

/-- Whether a step names downloads and so has to have options. -/
def Step.needsOptions : Step → Bool
  | .buildTrigger .. | .register .. | .saveBytes .. => true
  | _ => false

/-- Whether a request takes the stored options, having none of its own. -/
def Request.takesOptions (r : Request) : Bool :=
  match r.options.read with
  | .ok none => r.step.needsOptions
  | _ => false

variable {s : State} {o : Options} {x : Step} {given : Option Options} {f : State → State}

theorem replyOf_blind {y : Act Unit} (hy : y.Blind f) (s : State) (naming : Option Options) :
    replyOf y (f s) naming = ((replyOf y s naming).1, f (replyOf y s naming).2) := by
  rw [replyOf, hy s]
  rfl

theorem resolveWith_withOptions (i : Nat) (handle : String) (o : Options) :
    (resolveWith i handle).Blind (·.withOptions o) :=
  fun _ => rfl

theorem fire_withOptions (i : Nat) (t : Trigger) (handle : String) (source : Source) (o : Options) :
    (fire i t handle source).Blind (·.withOptions o) :=
  (Unseen.withOptions o).deliver (resolveWith_withOptions i handle o) t.saver t.options source

theorem ensureNamespace_withOptions (s : State) (name : String) (o : Options) :
    ensureNamespace (s.withOptions o) name = (ensureNamespace s name).withOptions o := by
  rw [ensureNamespace, ensureNamespace]
  split <;> split <;> first | rfl | contradiction

theorem register_withOptions (name : String) (t : Trigger) (o : Options) :
    (register name t).Blind (·.withOptions o) := by
  intro s
  have hspaces : (s.withOptions o).namespaces = s.namespaces := rfl
  rw [register, register, hspaces]
  cases ((s.namespaces.get? name).getD {}).rejection <;> rfl

/-- A step with options of its own does the same whatever is stored, unless it is about what is stored. -/
theorem perform_withOptions (s : State) (o : Options) (hchanges : x.changesOptions = false)
    (htells : x.tellsOptions = false) (hneeds : x.needsOptions = true → given ≠ none) :
    perform given x (s.withOptions o) = ((perform given x s).1, (perform given x s).2.withOptions o) := by
  have hf := Unseen.withOptions o
  cases x with
  | setOptions => cases hchanges
  | getOptions => cases htells
  | defineSaver name plan => cases plan <;> rfl
  | save saver d => exact replyOf_blind (hf.saveWith (s.saver saver) d) s none
  | buildTrigger name saver resolver =>
    cases given with
    | none => exact absurd rfl (hneeds rfl)
    | some own => rfl
  | register name saver resolver =>
    cases given with
    | none => exact absurd rfl (hneeds rfl)
    | some own =>
      simp only [perform, ensureNamespace_withOptions]
      have hsaver : ((ensureNamespace s name).withOptions o).saver saver =
        (ensureNamespace s name).saver saver := rfl
      rw [hsaver, register_withOptions]
      rfl
  | saveBytes saver bytes =>
    cases given with
    | none => exact absurd rfl (hneeds rfl)
    | some own => exact replyOf_blind (hf.saveBytes bytes (s.saver saver) own) s (some own)
  | fire name handle =>
    have htrigger : trigger? (s.withOptions o) name = trigger? s name := rfl
    simp only [perform, htrigger]
    cases trigger? s name with
    | none => rfl
    | some entry => exact replyOf_blind (fire_withOptions entry.1 entry.2 handle .generator o) s none
  | call name function handle =>
    have hfunction : function? (s.withOptions o) name function = function? s name function := rfl
    simp only [perform, hfunction]
    cases function? s name function with
    | none => rfl
    | some entry =>
      exact replyOf_blind (fire_withOptions entry.1 entry.2 handle .ambient o) s (some entry.2.options)
  | fireHook name =>
    have hhooks : (s.withOptions o).hooks = s.hooks := rfl
    simp only [perform, hhooks]
    cases s.hooks.get? name <;> rfl
  | writeFile path bytes =>
    have hfiles : (s.withOptions o).files = s.files := rfl
    have hhome : (s.withOptions o).home = s.home := rfl
    simp only [perform, hfiles, hhome]
    cases s.files.write s.home (Path.home.join path) bytes <;> rfl
  | _ => rfl

theorem step_withOptions (s : State) (o : Options) {r : Request} (hchanges : r.step.changesOptions = false)
    (htells : r.step.tellsOptions = false) (htakes : r.takesOptions = false) :
    step (s.withOptions o) r = ((step s r).1, (step s r).2.withOptions o) := by
  obtain ⟨source, x⟩ := r
  cases hread : source.read with
  | error e =>
    rw [step_of_unread hread, step_of_unread hread]
  | ok given =>
    rw [step_of_read hread, step_of_read hread]
    refine perform_withOptions s o hchanges htells ?_
    rintro hneeds rfl
    simp [Request.takesOptions, hread, hneeds] at htakes

theorem step_of_changesOptions {r : Request} (s : State) (h : r.step.changesOptions = true) :
    ∃ o, (step s r).2 = s.withOptions o := by
  obtain ⟨source, x⟩ := r
  cases x with
  | setOptions =>
    cases hread : source.read with
    | error e =>
      rw [step_of_unread hread]
      exact ⟨s.options, rfl⟩
    | ok given =>
      rw [step_of_read hread, perform, replyOf, setOptions]
      cases (given.getD {}).validate with
      | error e => exact ⟨s.options, rfl⟩
      | ok u => exact ⟨given.getD {}, rfl⟩
  | _ => cases h

theorem step_of_tellsOptions {r : Request} (s : State) (h : r.step.tellsOptions = true) :
    (step s r).2 = s := by
  obtain ⟨source, x⟩ := r
  cases x with
  | getOptions => cases hread : source.read <;> simp only [step, hread, perform]
  | _ => cases h

theorem takesOptions_of_changesOptions {r : Request} (h : r.step.changesOptions = true) :
    r.takesOptions = false := by
  obtain ⟨source, x⟩ := r
  cases x with
  | setOptions =>
    rw [Request.takesOptions]
    split <;> rfl
  | _ => cases h

def watched : Watched State Request Reply Options where
  step := step
  put := State.withOptions
  blank := {}
  changes r := r.step.changesOptions
  tells r := r.step.tellsOptions
  takes _ r := r.takesOptions

theorem watched_separate : watched.Separate where
  put_put _ _ _ := rfl
  put_self s := ⟨s.options, rfl⟩
  step_of_changes s _ h := step_of_changesOptions s h
  step_of_tells s _ h := step_of_tellsOptions s h
  takes_of_changes _ _ h := takesOptions_of_changesOptions h
  takes_put _ _ _ := rfl
  step_put s o _ hchanges htells htakes := step_withOptions s o hchanges htells htakes

/-! ### The options of a trigger -/

variable {slot : Slot} {r : Request} {i : Nat} {t : Trigger} {handle : String}

theorem options_of_built (h : built? s r = some (slot, t)) :
    ∃ given, r.options.read = .ok given ∧ t.options = given.getD s.options := by
  obtain ⟨source, x⟩ := r
  rw [built?] at h
  split at h
  · rename_i given name saver resolver hread hstep
    cases h
    exact ⟨given, hread, rfl⟩
  · rename_i given name saver resolver hread hstep
    split at h
    · cases h
      exact ⟨given, hread, rfl⟩
    · cases h
  · cases h

/-- The options of a trigger that is in its place after a run are those of the request that built it: its
own, or the ones that were stored just then. -/
theorem exists_moment_of_occupant {start : State} {requests : List Request}
    (h : (run start.cleared requests).2.occupant? slot = some (i, t)) :
    ∃ before b after given, requests = before ++ b :: after ∧
      (∃ u, built? (run start.cleared before).2 b = some (slot, u)) ∧
      Unbuilt slot (run start.cleared (before ++ [b])).2 after ∧
      b.options.read = .ok given ∧ t.options = given.getD (run start.cleared before).2.options := by
  have htenant : (run start.cleared requests).2.tenant? slot = some t := by
    rw [State.tenant?, h]
    rfl
  have hvacant : start.cleared.tenant? slot = (none : Option Tenancy).map Tenancy.now := by
    cases slot <;> rfl
  rw [tenant?_run (wellPlaced_cleared start) requests hvacant] at htenant
  obtain ⟨q, hq, rfl⟩ := Option.map_eq_some_iff.1 htenant
  obtain ⟨resolver, hnow⟩ := q.now_eq
  obtain ⟨before, b, after, hsplit, hbuilt, hunbuilt⟩ | ⟨⟨q₀, hnone, -⟩, -⟩ :=
    exists_built_or_unbuilt hq
  · obtain ⟨given, hread, hoptions⟩ := options_of_built hbuilt
    refine ⟨before, b, after, given, hsplit, ⟨_, hbuilt⟩, hunbuilt, hread, ?_⟩
    rw [hnow, ← hoptions]
  · cases hnone

/-- The words that the trigger in a place draws its names from. -/
def Slot.source : Slot → Source
  | .named _ => .generator
  | .imported _ => .ambient

/-- A step answers and leaves what an action does. -/
structure Does (x : Act Unit) (s : State) (out : Reply × State) : Prop where
  result : out.1.result = .ended (x s).result
  events : out.1.events = (x s).events
  state : out.2 = (x s).world

/-- A trigger in a place is run as it is fired by its name or called from its namespace. -/
theorem cases_of_ran (h : ran? r = some (slot, handle)) :
    ∃ given name, r.options.read = .ok given ∧
      (slot = .named name ∧ r.step = .fire name handle ∨
        slot = .imported name ∧ r.step = .call name importName handle) := by
  obtain ⟨source, x⟩ := r
  rw [ran?] at h
  split at h
  · rename_i given name other hread hstep
    cases h
    exact ⟨given, name, hread, .inl ⟨rfl, hstep⟩⟩
  · rename_i given name function other hread hstep
    split at h
    · rename_i hfunction
      cases h
      exact ⟨given, name, hread, .inr ⟨rfl, hfunction ▸ hstep⟩⟩
    · cases h
  · cases h

theorem step_of_ran (hran : ran? r = some (slot, handle)) (h : s.occupant? slot = some (i, t)) :
    Does (fire i t handle slot.source) s (step s r) := by
  have hcases := cases_of_ran hran
  obtain ⟨source, x⟩ := r
  obtain ⟨given, name, hread, ⟨rfl, rfl⟩ | ⟨rfl, rfl⟩⟩ := hcases
  · rw [step_of_read hread, perform, trigger?_eq, h]
    exact ⟨rfl, rfl, rfl⟩
  · rw [step_of_read hread, perform, function?_importName, h]
    exact ⟨rfl, rfl, rfl⟩

/-- A request that runs a trigger in a place runs the one that is there. -/
theorem fired?_of_ran (hran : ran? r = some (slot, handle)) (hslot : s.occupant? slot = some (i, t)) :
    fired? s r = some ⟨t, handle, slot.source⟩ := by
  have hcases := cases_of_ran hran
  obtain ⟨source, x⟩ := r
  obtain ⟨given, name, hread, ⟨rfl, rfl⟩ | ⟨rfl, rfl⟩⟩ := hcases
  · simp only [fired?, hread, trigger?_eq, hslot]
    rfl
  · simp only [fired?, hread, function?_importName, hslot]
    rfl

end SaveAs.Session
