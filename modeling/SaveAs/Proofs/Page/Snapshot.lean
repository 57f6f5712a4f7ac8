import SaveAs.Proofs.Interleaving
import SaveAs.Proofs.Page.Aloof

/-!
# Stored options of a page

The stored options are copied into a delivering function when it is registered, and read when bytes are
saved. No other step takes them, and no function that is there changes with them.
-/

namespace SaveAs.Page

def Step.changesOptions : Step → Bool
  | .configure _ => true
  | _ => false

/-- Whether a step asks for the stored options. -/
def Step.tellsOptions : Step → Bool
  | .getOptions => true
  | _ => false

/-- Whether a step takes the stored options, in a state of the page. -/
def State.takesOptions (s : State) (x : Step) : Bool :=
  match x with
  | .saveBytes _ => true
  | x => s.registers x

variable {s : State} {o : Options} {x : Step}

theorem replyOf_blind {α : Type} {y : Act α} {f : State → State} (hy : y.Blind f)
    (result : Except Failure α → Result) (s : State) (naming : Option Options) :
    replyOf result y (f s) naming =
      ((replyOf result y s naming).1, f (replyOf result y s naming).2) := by
  rw [replyOf, hy s]
  rfl

/-- A step that is not about the stored options does the same whatever they are. -/
theorem step_withOptions (s : State) (o : Options) (hchanges : x.changesOptions = false)
    (htells : x.tellsOptions = false) (htakes : s.takesOptions x = false) :
    step (s.withOptions o) x = ((step s x).1, (step s x).2.withOptions o) := by
  let p : Options → Prop := fun _ => True
  cases x with
  | configure v => cases hchanges
  | getOptions => cases htells
  | saveBytes bytes => cases htakes
  | register name => cases htakes
  | start => exact replyOf_blind (Aloof.start (p := p).blind o) .exported s none
  | callPlugin plugin name =>
    have hplugin : (s.withOptions o).pluginFunction? plugin = s.pluginFunction? plugin := rfl
    have hregister : s.pluginFunction? plugin ≠ some .register := of_decide_eq_false htakes
    simp only [step, hplugin]
    cases hf : s.pluginFunction? plugin with
    | none => rfl
    | some f =>
      have hcall : Aloof p (callFunction f (s.importObject name)) :=
        .callFunction (fun h => hregister (by rw [hf, h])) _
      exact replyOf_blind (hcall.shown.blind o) .returned s none
  | call name function argument =>
    have himported : (s.withOptions o).importedFunction? name function =
      s.importedFunction? name function := rfl
    have hregister : s.importedFunction? name function ≠ some .register := of_decide_eq_false htakes
    simp only [step, himported]
    cases hf : s.importedFunction? name function with
    | none => rfl
    | some f =>
      have hcall : Aloof p (do callFunction f (← place argument)) :=
        (Aloof.place argument).bind (Aloof.callFunction fun h => hregister (by rw [hf, h]))
      exact replyOf_blind (hcall.shown.blind o) .returned s f.naming
  | define name function failure =>
    have hdefine : Aloof p (do define (← openEnv (s.importObject name)) function (.probe failure)) :=
      (Aloof.openEnv _).bind fun env => Aloof.define env function fun _ _ => trivial
    exact replyOf_blind (hdefine.blind o) .ended s none
  | resolve handle =>
    have hresolve : Aloof p (do resolve (← place handle)) := (Aloof.place handle).bind Aloof.resolve
    exact replyOf_blind (hresolve.blind o) .resolved s none
  | document => exact replyOf_blind (Aloof.document (p := p).blind o) .ended s none
  | descriptor => exact replyOf_blind (Aloof.descriptor (p := p).shown.blind o) .returned s none
  | setHook hook => exact replyOf_blind ((Aloof.installHook (p := p) hook).blind o) .ended s none
  | _ => rfl

theorem takesOptions_withOptions (s : State) (o : Options) (x : Step) :
    (s.withOptions o).takesOptions x = s.takesOptions x := by
  cases x <;> rfl

def watched : Watched State Step Reply Options where
  step := step
  put := State.withOptions
  blank := {}
  changes := Step.changesOptions
  tells := Step.tellsOptions
  takes := State.takesOptions

theorem watched_separate : watched.Separate where
  put_put _ _ _ := rfl
  put_self s := ⟨s.options, rfl⟩
  step_of_changes s x h := by
    cases x with
    | configure v => exact configure_world v s
    | _ => cases h
  step_of_tells s x h := by
    cases x with
    | getOptions => rfl
    | _ => cases h
  takes_of_changes s x h := by
    cases x with
    | configure v => rfl
    | _ => cases h
  takes_put := takesOptions_withOptions
  step_put s o _ hchanges htells htakes := step_withOptions s o hchanges htells htakes

/-! ### The options of a function -/

/-- The page without objects. Pages start like this, whatever they offer and whatever words there are. -/
def State.cleared (s : State) : State :=
  { s with heap := {}, handles := ∅, imports := ∅, plugins := [] }

theorem run_kept {ref : Nat} {k : Kind} (steps : List Step) (h : s.heap.kind? ref = some k) :
    (run s steps).2.heap.kind? ref = some k := by
  induction steps generalizing s with
  | nil => exact h
  | cons x rest ih => exact ih ((step_grown s x).kept h)

/-- A delivering function that a run made was made by a registration, for the options stored just then. -/
theorem exists_registration {steps : List Step} {ref : Nat}
    (h : (run s steps).2.heap.kind? ref = some (.function (.deliver o)))
    (hnone : s.heap.kind? ref = none) :
    ∃ before x after, steps = before ++ x :: after ∧
      (run s before).2.heap.kind? ref = none ∧
      (run s (before ++ [x])).2.heap.kind? ref = some (.function (.deliver o)) ∧
      (run s before).2.registers x = true ∧ o = (run s before).2.options := by
  induction steps generalizing s with
  | nil =>
    have hkind : s.heap.kind? ref = some (.function (.deliver o)) := h
    rw [hnone] at hkind
    cases hkind
  | cons x rest ih =>
    cases hmade : (step s x).2.heap.kind? ref with
    | none =>
      obtain ⟨before, y, after, rfl, hbefore⟩ := ih h hmade
      exact ⟨x :: before, y, after, rfl, hbefore⟩
    | some k =>
      have hkept := run_kept rest hmade
      have hkind : (run (step s x).2 rest).2.heap.kind? ref = some (.function (.deliver o)) := h
      rw [hkept] at hkind
      rw [hkind] at hmade
      obtain ⟨hregisters, hoptions⟩ := (step_grown s x).fresh hmade hnone
      exact ⟨[], x, rest, rfl, hnone, hmade, hregisters, hoptions⟩

def State.importedRef? (s : State) (name function : String) : Option Nat :=
  match (s.heap.property? (s.importObject name) "env").bind (s.heap.property? · function) with
  | some (.object ref) => some ref
  | _ => none

theorem importedFunction?_of_ref {name function : String} {ref : Nat} {f : Function}
    (href : s.importedRef? name function = some ref) (hkind : s.heap.kind? ref = some (.function f)) :
    s.importedFunction? name function = some f := by
  rw [State.importedRef?] at href
  split at href
  · rename_i other hvalue
    obtain rfl := Option.some.inj href
    obtain ⟨env, henv, hfunction⟩ := Option.bind_eq_some_iff.1 hvalue
    have hf : s.heap.function? (.object other) = some f := (s.heap.function?_eq_some_iff other f).2 hkind
    rw [State.importedFunction?, henv]
    show (s.heap.property? env function).bind s.heap.function? = some f
    rw [hfunction]
    exact hf
  · cases href

theorem shown_of_undefined (x : Act Unit) (s : State) :
    shown (do x; pure .undefined) s =
      ⟨(x s).result.map fun _ => .undefined, (x s).events, (x s).world⟩ := by
  rw [shown]
  cases hx : x s with
  | mk result events w =>
    cases result with
    | ok u =>
      rw [Action.bind_of_ok (Action.bind_of_ok hx _)]
      simp [Except.map, Heap.literal, Heap.literalTo]
    | error e => rw [Action.bind_of_error (Action.bind_of_error hx _)]; rfl

theorem step_call_of_deliver {name function : String} (argument : Literal)
    (h : s.importedFunction? name function = some (.deliver o)) :
    let out := deliver (resolve (s.heap.place argument).1) o
      { s with heap := (s.heap.place argument).2 }
    step s (.call name function argument) =
      ({ result := .returned (out.result.map fun _ => .undefined)
         events := out.events
         naming := some o }, out.world) := by
  intro out
  have hplace : place argument s =
    ⟨.ok (s.heap.place argument).1, [], { s with heap := (s.heap.place argument).2 }⟩ := rfl
  have hcall : (do callFunction (.deliver o) (← place argument) : Act Value) s =
      (do deliver (resolve (s.heap.place argument).1) o; pure .undefined : Act Value)
        { s with heap := (s.heap.place argument).2 } := by
    rw [Action.bind_of_ok hplace]
    rfl
  have hshown : shown (do callFunction (.deliver o) (← place argument)) s =
      ⟨out.result.map fun _ => .undefined, out.events, out.world⟩ := by
    rw [← shown_of_undefined]
    show Action.andThen _ _ _ = Action.andThen _ _ _
    rw [Action.andThen, Action.andThen, hcall]
  rw [step, h]
  show replyOf .returned (shown (do callFunction (.deliver o) (← place argument))) s (some o) = _
  rw [replyOf, hshown]

theorem document_apply (s : State) : document s = ⟨(document s).result, [], s⟩ := by
  rw [document]
  split
  · rfl
  · split <;> rfl

theorem step_saveBytes_of_document (bytes : List UInt8) (h : (document s).result = .ok ()) :
    let out := deliver (pure (Base64.encode bytes)) s.options s
    step s (.saveBytes bytes) =
      ({ result := .exported out.result
         events := out.events
         naming := some s.options }, out.world) := by
  intro out
  have hdocument := document_apply s
  rw [h] at hdocument
  have hsave : saveBytes bytes s = out := by
    rw [saveBytes, Action.bind_of_ok hdocument]
    rfl
  rw [step, replyOf, hsave]

end SaveAs.Page
