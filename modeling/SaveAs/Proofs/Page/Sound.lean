import SaveAs.Proofs.Page.Registering
import SaveAs.Proofs.Page.Stages

/-!
# Sound pages

The elements in the body of a page were all made before, and the names of its import objects stand for
objects that are there. Both hold of a page that has neither, and of whatever steps make of it: only saves
change the body, and only one step changes what a name stands for. So what is said of pages whose body is in
order, and of import objects that are there, holds of all that a run can come to.
-/

namespace SaveAs.Page

/-- Keeps the body in order, and what the names of import objects stand for. -/
def Orderly {α : Type} (x : Act α) : Prop :=
  ∀ s : State, s.Bounded → (x s).world.Bounded ∧ (x s).world.imports = s.imports

variable {α β : Type} {s : State}

namespace Orderly

theorem bind {x : Act α} {k : α → Act β} (hx : Orderly x) (hk : ∀ a, Orderly (k a)) :
    Orderly (x >>= k) := by
  intro s hs
  have hfirst := hx s hs
  cases hout : x s with
  | mk result events w =>
    rw [hout] at hfirst
    cases result with
    | ok a =>
      rw [Action.bind_of_ok hout]
      have hlater := hk a w hfirst.1
      exact ⟨hlater.1, hlater.2.trans hfirst.2⟩
    | error e =>
      rw [Action.bind_of_error hout]
      exact hfirst

theorem pure (a : α) : Orderly (pure a : Act α) := fun _ hs => ⟨hs, rfl⟩

theorem fail (e : Failure) : Orderly (.fail e : Act α) := fun _ hs => ⟨hs, rfl⟩

theorem emit (event : Event) : Orderly (.emit event : Act Unit) := fun _ hs => ⟨hs, rfl⟩

theorem read (f : State → α) : Orderly (.read f : Act α) := fun _ hs => ⟨hs, rfl⟩

theorem modify {g : State → State}
    (h : ∀ s, (g s).children = s.children ∧ (g s).elements = s.elements ∧ (g s).imports = s.imports) :
    Orderly (.modify g : Act Unit) := by
  intro s hs
  obtain ⟨hchildren, helements, himports⟩ := h s
  refine ⟨?_, himports⟩
  show ∀ id ∈ (g s).children, id ≤ (g s).elements
  rw [hchildren, helements]
  exact hs

theorem attempt (names : List String) (wrap : Literal → Failure) {x : Act α} (hx : Orderly x) :
    Orderly (attempt names wrap x) := by
  intro s hs
  rw [Page.attempt]
  split
  · exact ⟨hs, rfl⟩
  · exact hx s hs

theorem offered {offers : State → Bool} {e : Failure} {x : Act α} (hx : Orderly x) :
    Orderly (do
      if !(← .read offers) then .fail e
      x) :=
  (read offers).bind fun there => by
    cases there
    · exact (fail e).bind fun _ => hx
    · exact hx

theorem document : Orderly document := by
  intro s hs
  rw [document_apply]
  exact ⟨hs, rfl⟩

theorem log (line : Line) : Orderly (log line) := fun _ hs => ⟨hs, rfl⟩

/-! ### Objects -/

theorem addObject (o : Object) : Orderly (addObject o) := fun _ hs => ⟨hs, rfl⟩

theorem place (v : Literal) : Orderly (place v) := fun _ hs => ⟨hs, rfl⟩

theorem writeProperty (target : Value) (name : String) (v : Value) (wrap : Literal → Failure) :
    Orderly (writeProperty target name v wrap) := by
  intro s hs
  rw [Page.writeProperty]
  split <;> exact ⟨hs, rfl⟩

theorem openEnv (target : Value) : Orderly (openEnv target) := by
  intro s hs
  have hopening := opening_openEnv s target
  generalize Page.openEnv target s = out at hopening
  cases hopening <;> exact ⟨hs, rfl⟩

theorem define (env : Value) (name : String) (f : Function) : Orderly (define env name f) :=
  (addObject _).bind fun v => writeProperty env name v _

theorem registerImport (target : Value) : Orderly (registerImport target) :=
  (openEnv target).bind fun env => document.bind fun _ => (read _).bind fun _ => define env _ _

/-! ### Deliveries -/

theorem consumeHandle (handle : Value) : Orderly (consumeHandle handle) :=
  offered (attempt _ _ fun _ hs => ⟨hs, rfl⟩)

theorem resolve (handle : Value) : Orderly (resolve handle) := by
  refine (consumeHandle handle).bind fun v => ?_
  cases v with
  | string payload => exact pure payload
  | _ => exact fail _

theorem drawName (o : Options) : Orderly (drawName o) := fun _ hs => ⟨hs, rfl⟩

theorem save (d : Download) : Orderly (anchors.save d) := by
  intro s hs
  obtain hsame | hcreated | hclicked := (saves_save hs .undefined d).leaves.cases
  · rw [hsame]
    exact ⟨hs, rfl⟩
  · rw [hcreated]
    exact ⟨hs.created, rfl⟩
  · rw [hclicked]
    exact ⟨hs.clicked, by rw [clicked_eq]; cases s.settings.onClick <;> rfl⟩

theorem deliver {payload : Act String} (hpayload : Orderly payload) (o : Options) :
    Orderly (deliver payload o) :=
  (log _).bind fun _ => hpayload.bind fun payload => (drawName o).bind fun filename => (log _).bind
    fun _ => (save ⟨payload, o.mimeType, filename⟩).bind fun _ => log (.checkpoint (.triggered filename))

theorem callFunction (f : Function) (argument : Value) : Orderly (callFunction f argument) := by
  cases f with
  | inert => exact pure _
  | register => exact (registerImport argument).bind fun _ => pure _
  | deliver o => exact (deliver (resolve argument) o).bind fun _ => pure _
  | probe failure =>
    refine (read _).bind fun v => (emit _).bind fun _ => ?_
    cases failure with
    | none => exact pure _
    | some text => exact (fail _).bind fun _ => pure _

theorem saveBytes (bytes : List UInt8) : Orderly (saveBytes bytes) :=
  document.bind fun _ => (read _).bind fun o => deliver (pure _) o

/-! ### The module -/

theorem descriptor : Orderly descriptor :=
  (addObject _).bind fun _ => addObject _

theorem installHook (hook : ClickHook) : Orderly (installHook hook) :=
  document.bind fun _ => (emit _).bind fun _ => modify fun _ => ⟨rfl, rfl, rfl⟩

theorem addPlugin (plugin : Value) : Orderly (addPlugin plugin) :=
  offered (attempt _ _ fun _ hs => ⟨hs, rfl⟩)

theorem start : Orderly start :=
  (modify (g := ({ · with logging := true })) fun _ => ⟨rfl, rfl, rfl⟩).bind fun _ =>
    (installHook .idle).bind fun _ => descriptor.bind fun plugin => (addPlugin plugin).bind fun _ =>
      log .pluginAdded

theorem shown {x : Act Value} (hx : Orderly x) : Orderly (shown x) :=
  hx.bind fun _ => read _

end Orderly

/-! ### Steps and runs -/

theorem step_orderly (x : Step) (hx : ¬ ∃ name v, x = .nameImport name v) (hs : s.Bounded) :
    (step s x).2.Bounded ∧ (step s x).2.imports = s.imports := by
  cases x with
  | start => exact Orderly.start s hs
  | configure v =>
    obtain ⟨o, hworld⟩ := configure_world v s
    show (configure v s).world.Bounded ∧ (configure v s).world.imports = s.imports
    rw [hworld]
    exact ⟨hs, rfl⟩
  | saveBytes bytes => exact Orderly.saveBytes bytes s hs
  | nameImport name v => exact absurd ⟨name, v, rfl⟩ hx
  | callPlugin plugin name =>
    rw [step]
    cases s.pluginFunction? plugin with
    | none => exact ⟨hs, rfl⟩
    | some f => exact (Orderly.callFunction f (s.importObject name)).shown s hs
  | register name => exact Orderly.registerImport (s.importObject name) s hs
  | call name function argument =>
    rw [step]
    cases s.importedFunction? name function with
    | none => exact ⟨hs, rfl⟩
    | some f => exact ((Orderly.place argument).bind (Orderly.callFunction f)).shown s hs
  | define name function failure =>
    exact (Orderly.openEnv (s.importObject name)).bind (fun env => .define env function _) s hs
  | resolve handle => exact (Orderly.place handle).bind Orderly.resolve s hs
  | document => exact Orderly.document s hs
  | descriptor => exact Orderly.descriptor.shown s hs
  | setHook hook => exact Orderly.installHook hook s hs
  | _ => exact ⟨hs, rfl⟩

theorem step_bounded (x : Step) (hs : s.Bounded) : (step s x).2.Bounded := by
  by_cases hx : ∃ name v, x = .nameImport name v
  · obtain ⟨name, v, rfl⟩ := hx
    exact hs
  · exact (step_orderly x hx hs).1

theorem run_bounded (steps : List Step) (hs : s.Bounded) : (run s steps).2.Bounded := by
  induction steps generalizing s with
  | nil => exact hs
  | cons x rest ih => exact ih (step_bounded x hs)

/-! ### Import objects -/

namespace Heap

/-- A value that is not an object, or one whose object is there. -/
def Has (h : Heap) (v : Value) : Prop :=
  ∀ ref, v = .object ref → ∃ o, h.get? ref = some o

variable {p : Options → Prop} {h h₁ : Heap} {v : Value}

theorem Has.grown (hhas : h.Has v) (hgrown : Grown p h h₁) : h₁.Has v := by
  intro ref hv
  obtain ⟨o, hget⟩ := hhas ref hv
  have hkind : h.kind? ref = some o.kind := by rw [kind?, hget, Option.map_some]
  obtain ⟨o', hget', -⟩ := Option.map_eq_some_iff.1 (hgrown.kept hkind)
  exact ⟨o', hget'⟩

theorem has_add (h : Heap) (o : Object) : (h.add o).2.Has (h.add o).1 := by
  rintro _ ⟨⟩
  exact ⟨o, h.get?_add_self o⟩

theorem has_place (h : Heap) (v : Literal) : (h.place v).2.Has (h.place v).1 := by
  cases v with
  | array items => rw [place]; exact has_add _ _
  | object properties frozen bare getThrows setThrows => rw [place]; exact has_add _ _
  | function => exact has_add _ _
  | error name message => rw [place]; exact has_add _ _
  | _ => rintro _ ⟨⟩

end Heap

/-- The body is in order, and the names of import objects stand for objects that are there. -/
structure State.Sound (s : State) : Prop where
  body : s.Bounded
  imports : ∀ name, s.heap.Has (s.importObject name)

theorem State.Sound.fresh : State.Sound {} where
  body := fun _ hid => absurd hid List.not_mem_nil
  imports := fun _ _ hobject => by cases hobject

theorem step_sound (x : Step) (hs : s.Sound) : (step s x).2.Sound := by
  refine ⟨step_bounded x hs.body, fun name => ?_⟩
  by_cases hx : ∃ name v, x = .nameImport name v
  · obtain ⟨other, v, rfl⟩ := hx
    show (s.heap.place v).2.Has (((s.imports.set other (s.heap.place v).1).get? name).getD .undefined)
    rw [Table.get?_set]
    split
    · exact Heap.has_place s.heap v
    · exact (hs.imports name).grown (.place (fun _ => True) s.heap v)
  · rw [State.importObject, (step_orderly x hx hs.body).2]
    exact (hs.imports name).grown (step_grown s x)

theorem run_sound (steps : List Step) (hs : s.Sound) : (run s steps).2.Sound := by
  induction steps generalizing s with
  | nil => exact hs
  | cons x rest ih => exact ih (step_sound x hs)

end SaveAs.Page
