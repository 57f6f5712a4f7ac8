import SaveAs.Proofs.Page.Sound

/-!
# What a registration touches

A registration writes at two places at most: `env` of the import object, if there is none, and the download
function in that `env`. Nothing of the page changes but objects. Where a registration fails, the second
write has not been made, and the first one has left an `env` without properties or nothing.
-/

namespace SaveAs.Page

namespace Heap

/-- The objects that were there are as they were, but for properties at some places. -/
def Touched (p : Value → String → Prop) (h h' : Heap) : Prop :=
  ∀ ref o, h.get? ref = some o → ∃ properties, h'.get? ref = some { o with properties := properties } ∧
    ∀ name, ¬ p (.object ref) name → properties.get? name = o.properties.get? name

variable {p q : Value → String → Prop} {h h₁ h₂ : Heap} {target v : Value} {name : String} {ref : Nat}
  {o : Object}

namespace Touched

theorem refl (p : Value → String → Prop) (h : Heap) : Touched p h h :=
  fun _ o hget => ⟨o.properties, hget, fun _ _ => rfl⟩

theorem mono (hpq : ∀ v name, p v name → q v name) (htouched : Touched p h h₁) : Touched q h h₁ := by
  intro ref o hget
  obtain ⟨properties, hget₁, hkept⟩ := htouched ref o hget
  exact ⟨properties, hget₁, fun name hname => hkept name fun hp => hname (hpq _ _ hp)⟩

theorem trans (h₁₂ : Touched p h h₁) (h₂₃ : Touched p h₁ h₂) : Touched p h h₂ := by
  intro ref o hget
  obtain ⟨properties, hget₁, hkept⟩ := h₁₂ ref o hget
  obtain ⟨properties', hget₂, hkept'⟩ := h₂₃ ref _ hget₁
  exact ⟨properties', hget₂, fun name hname => (hkept' name hname).trans (hkept name hname)⟩

theorem add (p : Value → String → Prop) (h : Heap) (o : Object) : Touched p h (h.add o).2 :=
  fun _ o' hget => ⟨o'.properties, get?_add_of_some hget o, fun _ _ => rfl⟩

theorem write (hwrite : h.write target name v = .ok h₁) :
    Touched (fun u key => u = target ∧ key = name) h h₁ := by
  intro ref o hget
  by_cases hsame : target = .object ref
  · subst hsame
    rw [write_of_get? hget hwrite]
    split
    · exact ⟨o.properties, hget, fun _ _ => rfl⟩
    · refine ⟨o.properties.set name v, get?_replace_self hget _, fun key hkey => ?_⟩
      exact Table.get?_set_of_ne _ v fun heq => hkey ⟨rfl, heq⟩
  · exact ⟨o.properties, get?_write hget (fun heq => absurd heq hsame) hwrite, fun _ _ => rfl⟩

theorem property?_eq (htouched : Touched p h h₁) (hhas : h.Has v) (hname : ¬ p v name) :
    h₁.property? v name = h.property? v name := by
  cases v with
  | object ref =>
    obtain ⟨o, hget⟩ := hhas ref rfl
    obtain ⟨properties, hget₁, hkept⟩ := htouched ref o hget
    simp only [property?, hget, hget₁, Option.bind_some, hkept name hname]
  | _ => rfl

theorem function?_eq {f : Function} (htouched : Touched p h h₁) (hf : h.function? v = some f) :
    h₁.function? v = some f := by
  cases v with
  | object ref =>
    rw [function?_eq_some_iff] at hf ⊢
    obtain ⟨o, hget, hkind⟩ := Option.map_eq_some_iff.1 hf
    obtain ⟨properties, hget₁, -⟩ := htouched ref o hget
    rw [kind?, hget₁, Option.map_some, ← hkind]
  | _ => cases hf

/-- Places of an object that was not there do not count. -/
theorem of_fresh {fresh : Nat} (hfresh : h.get? fresh = none)
    (htouched : Touched (fun v name => p v name ∨ v = .object fresh) h h₁) : Touched p h h₁ := by
  intro ref o hget
  obtain ⟨properties, hget₁, hkept⟩ := htouched ref o hget
  refine ⟨properties, hget₁, fun name hname => hkept name ?_⟩
  rintro (hp | hv)
  · exact hname hp
  · cases hv
    rw [hfresh] at hget
    cases hget

end Touched

theorem Has.touched (hhas : h.Has v) (htouched : Touched p h h₁) : h₁.Has v := by
  intro ref hv
  obtain ⟨o, hget⟩ := hhas ref hv
  obtain ⟨properties, hget₁, -⟩ := htouched ref o hget
  exact ⟨_, hget₁⟩

theorem has_of_property? {u : Value} (hproperty : h.property? v name = some u) : h.Has v := by
  rintro ref rfl
  obtain ⟨o, hget, -⟩ := Option.bind_eq_some_iff.1 hproperty
  exact ⟨o, hget⟩

/-! ### Where a registration writes -/

/-- The place of an `env` that is to be made. -/
def EnvPlace (h : Heap) (target v : Value) (name : String) : Prop :=
  v = target ∧ name = "env" ∧ h.LacksEnv target

/-- `env` is what it was, or there was none and it is a new plain object with some properties only. -/
def EnvMade (p : String → Prop) (target : Value) (h h' : Heap) : Prop :=
  h'.property? target "env" = h.property? target "env" ∨
    h.LacksEnv target ∧ ∃ ref properties, h.get? ref = none ∧
      h'.property? target "env" = some (.object ref) ∧
      h'.get? ref = some { kind := .plain, properties := properties } ∧
      ∀ name, ¬ p name → properties.get? name = none

variable {f g : String → Prop}

/-- What is touched later shows in a new `env`, and does not make another. -/
theorem EnvMade.touched (hmade : EnvMade f target h h₁) (htouched : Touched p h₁ h₂)
    (hhas : h₁.Has target) (htarget : ¬ p target "env") (hp : ∀ v name, p v name → g name)
    (hf : ∀ name, f name → g name) : EnvMade g target h h₂ := by
  rw [EnvMade, htouched.property?_eq hhas htarget]
  refine hmade.imp_right ?_
  rintro ⟨hlacks, ref, properties, hfresh, hproperty, hget, hnone⟩
  obtain ⟨properties', hget', hkept⟩ := htouched ref _ hget
  refine ⟨hlacks, ref, properties', hfresh, hproperty, hget', fun name hname => ?_⟩
  rw [hkept name fun hpn => hname (hp _ _ hpn)]
  exact hnone name fun hfn => hname (hf _ hfn)

/-- An `env` that is made and written is there, if the import object takes it. -/
theorem envMade_of_write (hhas : h.Has target) (hlacks : h.LacksEnv target)
    (hwrite : (h.add { kind := .plain }).2.write target "env" (.object h.objects.length) = .ok h₁) :
    EnvMade (fun _ => False) target h h₁ := by
  cases target with
  | object ref =>
    obtain ⟨o, hget⟩ := hhas ref rfl
    have hadded := get?_add_of_some hget { kind := .plain }
    by_cases hfrozen : o.frozen = true
    · refine .inl ?_
      rw [write_of_get? hadded hwrite, if_pos hfrozen]
      exact (Touched.add (fun _ _ => False) h _).property?_eq hhas id
    · have htakes : (h.add { kind := .plain }).2.Takes (.object ref) :=
        ⟨ref, o, rfl, hadded, Bool.eq_false_iff.2 hfrozen⟩
      have hnew : ¬ Value.object ref = .object h.objects.length := by
        rintro ⟨⟩
        rw [get?_length] at hget
        cases hget
      refine .inr ⟨hlacks, _, ∅, h.get?_length, ?_, ?_, fun name _ => Table.get?_empty name⟩
      · rw [property?_write htakes hwrite]
        exact if_pos ⟨rfl, rfl⟩
      · exact get?_write (h.get?_add_self _) (fun hsame => absurd hsame hnew) hwrite
  | _ => cases hwrite

end Heap

variable {s : State} {target env : Value} {name : String} {out : Outcome Failure Event State Unit}

/-- Opening `env` touches its place, and nothing but objects. -/
structure Opens (s : State) (target : Value) (w : State) : Prop where
  world : w = { s with heap := w.heap }
  touched : s.heap.Touched (s.heap.EnvPlace target) w.heap
  made : Heap.EnvMade (fun _ => False) target s.heap w.heap

/-- A registration, while the download function is not defined yet. -/
theorem Opens.add {w : State} (h : Opens s target w) (hhas : s.heap.Has target) (o : Object) :
    Opens s target { w with heap := (w.heap.add o).2 } where
  world := by rw [h.world]
  touched := h.touched.trans (.add _ w.heap o)
  made := h.made.touched (.add (fun _ _ => False) w.heap o) (hhas.touched h.touched) id
    (fun _ _ => id) fun _ => id

theorem Opening.opens {out : Outcome Failure Event State Value} (h : Opening s target out)
    (hhas : s.heap.Has target) : Opens s target out.world := by
  have hsame : Opens s target s := ⟨rfl, .refl _ s.heap, .inl rfl⟩
  cases h with
  | unread => exact hsame
  | unmade => exact hsame.add hhas _
  | there hproperty hreceiver => exact hsame
  | made hlacks hreceiver hwrite =>
    refine ⟨rfl, ?_, Heap.envMade_of_write hhas hlacks hwrite⟩
    exact (Heap.Touched.add _ s.heap _).trans
      ((Heap.Touched.write hwrite).mono fun v name hplace => ⟨hplace.1, hplace.2, hlacks⟩)

/-- An `env` that is open is the one that was there, or it is new. -/
theorem Opening.env_eq {w : State} (h : Opening s target ⟨.ok env, [], w⟩) :
    s.heap.property? target "env" = some env ∨ ∃ ref, env = .object ref ∧ s.heap.get? ref = none := by
  cases h with
  | there hproperty hreceiver => exact .inl hproperty
  | made hlacks hreceiver hwrite => exact .inr ⟨_, rfl, s.heap.get?_length⟩

/-- The places that a registration may write at: `env`, if there is none, and the download function in the
`env` that is there. -/
def Heap.RegistrationPlace (h : Heap) (target v : Value) (name : String) : Prop :=
  h.EnvPlace target v name ∨ h.property? target "env" = some v ∧ name = importName

theorem Registration.touches (h : Registration s target out) (hhas : s.heap.Has target) :
    out.events = [] ∧ out.world = { s with heap := out.world.heap } ∧
      s.heap.Touched (s.heap.RegistrationPlace target) out.world.heap ∧
      Heap.EnvMade (· = importName) target s.heap out.world.heap := by
  have hfailed {w : State} (hopens : Opens s target w) :
      w = { s with heap := w.heap } ∧ s.heap.Touched (s.heap.RegistrationPlace target) w.heap ∧
        Heap.EnvMade (· = importName) target s.heap w.heap :=
    ⟨hopens.world, hopens.touched.mono fun _ _ => .inl,
      hopens.made.touched (.refl (fun _ _ => False) w.heap) (hhas.touched hopens.touched) id
        (fun _ _ => False.elim) fun _ => False.elim⟩
  cases h with
  | unopened hopening => exact ⟨rfl, hfailed (hopening.opens hhas)⟩
  | undocumented hopening => exact ⟨rfl, hfailed (hopening.opens hhas)⟩
  | undefined hopening => exact ⟨rfl, hfailed ((hopening.opens hhas).add hhas _)⟩
  | @defined env w h₂ hopening hwrite =>
    have hopens : Opens s target w := hopening.opens hhas
    have hadded := hopens.add hhas { kind := .function (.deliver w.options) }
    have hwritten := Heap.Touched.write hwrite
    refine ⟨rfl, ?_, ?_, ?_⟩
    · show ({ w with heap := h₂ } : State) = { s with heap := h₂ }
      rw [hopens.world]
    · obtain hproperty | ⟨ref, rfl, hfresh⟩ := hopening.env_eq
      · exact (hadded.touched.mono fun _ _ => .inl).trans
          (hwritten.mono fun v name hplace => .inr ⟨by rw [hplace.1]; exact hproperty, hplace.2⟩)
      · refine Heap.Touched.of_fresh hfresh ?_
        exact (hadded.touched.mono fun _ _ hplace => .inl (.inl hplace)).trans
          (hwritten.mono fun v name hplace => .inr hplace.1)
    · exact hadded.made.touched hwritten (hhas.touched hadded.touched)
        (fun hplace => absurd hplace.2 (by decide)) (fun v name hplace => hplace.2) fun _ => False.elim

/-! ### Registrations that fail -/

theorem Registration.opens_of_error {f : Failure} (h : Registration s target out) (hhas : s.heap.Has target)
    (hfailed : out.result = .error f) : Opens s target out.world := by
  cases h with
  | unopened hopening => exact hopening.opens hhas
  | undocumented hopening => exact hopening.opens hhas
  | undefined hopening => exact (hopening.opens hhas).add hhas _
  | defined hopening hwrite => cases hfailed

namespace Heap

/-- No object stands where an `env` is to be made. -/
theorem EnvPlace.not_object {h : Heap} {target v : Value} {name : String} {ref : Nat}
    (hplace : h.EnvPlace target v name) : h.property? v name ≠ some (.object ref) := by
  obtain ⟨rfl, rfl, hlacks⟩ := hplace
  intro hproperty
  simp [LacksEnv, hproperty] at hlacks

theorem object_of_property? {h : Heap} {v u : Value} {name : String} (hproperty : h.property? v name = some u) :
    ∃ ref, v = .object ref := by
  cases v with
  | object ref => exact ⟨ref, rfl⟩
  | _ => cases hproperty

theorem object_of_function? {h : Heap} {v : Value} {f : Function} (hf : h.function? v = some f) :
    ∃ ref, v = .object ref := by
  cases v with
  | object ref => exact ⟨ref, rfl⟩
  | _ => cases hf

end Heap

/-- Functions that could be called in an `env` can still be called there. -/
theorem Opens.importedFunction? {w : State} {function : String} {f : Function} (h : Opens s target w)
    (hf : s.importedFunction? name function = some f) : w.importedFunction? name function = some f := by
  obtain ⟨env, henv, hrest⟩ := Option.bind_eq_some_iff.1 hf
  obtain ⟨v, hv, hfunction⟩ := Option.bind_eq_some_iff.1 hrest
  obtain ⟨envRef, rfl⟩ := Heap.object_of_property? hv
  obtain ⟨ref, rfl⟩ := Heap.object_of_function? hfunction
  have himport : w.importObject name = s.importObject name := by rw [h.world]; rfl
  have henv' := h.touched.property?_eq (Heap.has_of_property? henv) fun hplace => hplace.not_object henv
  have hv' := h.touched.property?_eq (Heap.has_of_property? hv) fun hplace => hplace.not_object hv
  rw [State.importedFunction?, himport, henv', henv]
  show (w.heap.property? (.object envRef) function).bind w.heap.function? = some f
  rw [hv', hv]
  exact h.touched.function?_eq hfunction

/-- A registration changes nothing but the import object's `env`, if there is none, and the download
function in `env`. One that fails leaves a new `env` without properties at most, and the functions that
were imported run as before. It takes an import object that is there, as all of them are on a page that
steps have made from a sound one. -/
theorem registration_touches_env_alone :
    (∀ (s : State) {target : Value}, s.heap.Has target →
      let out := registerImport target s
      out.events = [] ∧ out.world = { s with heap := out.world.heap } ∧
      s.heap.Touched (s.heap.RegistrationPlace target) out.world.heap ∧
      Heap.EnvMade (· = importName) target s.heap out.world.heap ∧
      ∀ f, out.result = .error f →
        s.heap.Touched (s.heap.EnvPlace target) out.world.heap ∧
        Heap.EnvMade (fun _ => False) target s.heap out.world.heap ∧
        ∀ name function,
          (∀ g, s.importedFunction? name function = some g →
            out.world.importedFunction? name function = some g) ∧
          ∀ o argument, s.importedFunction? name function = some (.deliver o) →
            let called := deliver (resolve (out.world.heap.place argument).1) o
              { out.world with heap := (out.world.heap.place argument).2 }
            step out.world (.call name function argument) =
              ({ result := .returned (called.result.map fun _ => .undefined)
                 events := called.events
                 naming := some o }, called.world)) ∧
    State.Sound {} ∧
    ∀ (start : State) (steps : List Step) (name : String), start.Sound →
      (run start steps).2.heap.Has ((run start steps).2.importObject name) := by
  refine ⟨fun s target hhas => ?_, .fresh,
    fun start steps name hstart => (run_sound steps hstart).imports name⟩
  intro out
  have hregistration := registration_registerImport s target
  obtain ⟨hevents, hworld, htouched, hmade⟩ := hregistration.touches hhas
  refine ⟨hevents, hworld, htouched, hmade, fun f hfailed => ?_⟩
  have hopens := hregistration.opens_of_error hhas hfailed
  exact ⟨hopens.touched, hopens.made, fun name function =>
    ⟨fun g hg => hopens.importedFunction? hg, fun o argument ho =>
      step_call_of_deliver argument (hopens.importedFunction? ho)⟩⟩

/-- A second registration, for which there is no document any more, leaves the first one's function. -/
theorem first_function_after_failed_registration :
    let s := (run {} [.nameImport "imports" (.plain []), .register "imports", .change [.document false]]).2
    let out := registerImport (s.importObject "imports") s
    s.heap.Has (s.importObject "imports") ∧ out.result = .error .noDocument ∧ out.events = [] ∧
      Heap.EnvMade (fun _ => False) (s.importObject "imports") s.heap out.world.heap ∧
      out.world.importedFunction? "imports" importName = some (.deliver {}) := by
  intro s out
  obtain ⟨htouches, hfresh, hreached⟩ := registration_touches_env_alone
  have hhas : s.heap.Has (s.importObject "imports") := hreached {} _ "imports" hfresh
  obtain ⟨hevents, -, -, -, hfailed⟩ := htouches s hhas
  obtain ⟨-, hmade, hkept⟩ := hfailed .noDocument rfl
  exact ⟨hhas, rfl, hevents, hmade, (hkept "imports" importName).1 _ rfl⟩

end SaveAs.Page
