import SaveAs.Proofs.Page.Snapshot

/-!
# Registrations that are seen

A write to a frozen object is ignored and counts as done. So a registration that succeeds is seen only if
the object that has to take the deciding write is not frozen: the import object itself where `env` has to
be made, and `env` where it is there. Otherwise no object of the page changes.
-/

namespace SaveAs.Page

namespace Heap

/-- The value is an object that takes writes. -/
def Takes (h : Heap) (v : Value) : Prop :=
  ∃ ref o, v = .object ref ∧ h.get? ref = some o ∧ o.frozen = false

/-- The object whose write decides a registration. -/
def receiver (h : Heap) (target : Value) : Value :=
  match h.read target "env" with
  | .ok .undefined | .ok .null => target
  | .ok env => env
  | .error _ => target

/-- There is no `env`, or one that counts as none. -/
def LacksEnv (h : Heap) (target : Value) : Prop :=
  h.property? target "env" = none ∨ h.property? target "env" = some .undefined ∨
    h.property? target "env" = some .null

variable {h h₁ h₂ : Heap} {target v : Value} {name : String} {ref : Nat} {o : Object}

theorem get?_replace_self (hget : h.get? ref = some o) (o' : Object) :
    (h.replace ref o').get? ref = some o' := by
  obtain ⟨hlt, -⟩ := List.getElem?_eq_some_iff.1 hget
  exact List.getElem?_set_self hlt

theorem get?_length (h : Heap) : h.get? h.objects.length = none :=
  List.getElem?_eq_none (Nat.le_refl _)

theorem get?_add_self (h : Heap) (o : Object) : (h.add o).2.get? h.objects.length = some o := by
  rw [get?_add, if_pos rfl]

theorem get?_add_of_some (hget : h.get? ref = some o) (o' : Object) :
    (h.add o').2.get? ref = some o := by
  rw [get?_add, if_neg, hget]
  rintro rfl
  rw [get?_length] at hget
  cases hget

/-- A write that is not thrown is done or ignored. -/
theorem write_of_get? (hget : h.get? ref = some o) (hwrite : h.write (.object ref) name v = .ok h₁) :
    h₁ = if o.frozen then h else h.replace ref { o with properties := o.properties.set name v } := by
  simp only [write, hget] at hwrite
  split at hwrite
  · cases hwrite
  · split at hwrite <;> rename_i hfrozen
    · rw [if_pos hfrozen, Except.ok.inj hwrite]
    · rw [if_neg hfrozen, Except.ok.inj hwrite]

/-- Objects that a write is not about stay, and so do frozen ones. -/
theorem get?_write (hget : h.get? ref = some o) (hfrozen : target = .object ref → o.frozen = true)
    (hwrite : h.write target name v = .ok h₁) : h₁.get? ref = some o := by
  cases target with
  | object other =>
    cases hother : h.get? other with
    | none =>
      simp only [write, hother] at hwrite
      rw [← Except.ok.inj hwrite, hget]
    | some object =>
      rw [write_of_get? hother hwrite]
      split
      · exact hget
      · rename_i htakes
        by_cases hsame : ref = other
        · subst hsame
          rw [hget] at hother
          rw [← Option.some.inj hother] at htakes
          exact absurd (hfrozen rfl) htakes
        · rw [get?_replace_of_ne h _ hsame, hget]
  | _ => cases hwrite

theorem property?_write (htakes : h.Takes target) (hwrite : h.write target name v = .ok h₁)
    (other : Value) (key : String) :
    h₁.property? other key =
      if other = target ∧ key = name then some v else h.property? other key := by
  obtain ⟨ref, o, rfl, hget, hfrozen⟩ := htakes
  rw [write_of_get? hget hwrite, if_neg (by simp [hfrozen])]
  cases other with
  | object other =>
    by_cases hother : other = ref
    · subst hother
      simp only [property?, get?_replace_self hget, hget, Option.bind_some, Table.get?_set, true_and]
    · simp only [property?, get?_replace_of_ne h _ hother, Value.object.injEq, hother, false_and,
        if_false]
  | _ => simp [property?]

theorem property?_add_of_some (hproperty : h.property? target name = some v) (o' : Object) :
    (h.add o').2.property? target name = some v := by
  cases target with
  | object ref =>
    obtain ⟨o, hget, hv⟩ := Option.bind_eq_some_iff.1 hproperty
    rw [property?, get?_add_of_some hget, Option.bind_some, hv]
  | _ => cases hproperty

theorem Takes.add (htakes : h.Takes target) (o' : Object) : (h.add o').2.Takes target := by
  obtain ⟨ref, o, htarget, hget, hfrozen⟩ := htakes
  exact ⟨ref, o, htarget, get?_add_of_some hget o', hfrozen⟩

theorem property?_of_read (hread : h.read target name = .ok v) (hv : v ≠ .undefined) :
    h.property? target name = some v := by
  cases target with
  | object ref =>
    rw [read] at hread
    split at hread
    · exact absurd (Except.ok.inj hread).symm hv
    · rename_i o hget
      split at hread
      · cases hread
      · rw [property?, hget, Option.bind_some]
        cases hproperty : o.properties.get? name with
        | none =>
          rw [hproperty] at hread
          exact absurd (Except.ok.inj hread).symm hv
        | some u =>
          rw [hproperty] at hread
          exact congrArg some (Except.ok.inj hread)
  | _ => cases hread

theorem lacksEnv_of_read (hread : h.read target "env" = .ok v) (hv : v = .undefined ∨ v = .null) :
    h.LacksEnv target := by
  cases hproperty : h.property? target "env" with
  | none => exact .inl hproperty
  | some u =>
    have hsame : u = v := by
      cases target with
      | object ref =>
        obtain ⟨o, hget, hu⟩ := Option.bind_eq_some_iff.1 hproperty
        simp only [read, hget] at hread
        split at hread
        · cases hread
        · rw [hu] at hread
          exact Except.ok.inj hread
      | _ => cases hproperty
    rw [hsame] at hproperty
    obtain rfl | rfl := hv
    · exact .inr (.inl hproperty)
    · exact .inr (.inr hproperty)

end Heap

/-! ### Opening and defining -/

/-- The `env` of an import object, with the heap in which it is open: as it was, or made just now. -/
inductive Opened (h : Heap) (target : Value) : Value → Heap → Prop
  | there {env : Nat} (hproperty : h.property? target "env" = some (.object env))
      (hreceiver : h.receiver target = .object env) : Opened h target (.object env) h
  | made {h₁ : Heap} (hreceiver : h.receiver target = target)
      (hwrite : (h.add { kind := .plain }).2.write target "env" (.object h.objects.length) = .ok h₁) :
      Opened h target (.object h.objects.length) h₁

/-- How `env` is opened: it is there, or it is made, or neither and nothing refers to what was made. -/
inductive Opening (s : State) (target : Value) : Outcome Failure Event State Value → Prop
  | unread {f : Failure} : Opening s target ⟨.error f, [], s⟩
  | unmade {f : Failure} :
      Opening s target ⟨.error f, [], { s with heap := (s.heap.add { kind := .plain }).2 }⟩
  | there {env : Nat} (hproperty : s.heap.property? target "env" = some (.object env))
      (hreceiver : s.heap.receiver target = .object env) : Opening s target ⟨.ok (.object env), [], s⟩
  | made {h₁ : Heap} (hlacks : s.heap.LacksEnv target) (hreceiver : s.heap.receiver target = target)
      (hwrite : (s.heap.add { kind := .plain }).2.write target "env" (.object s.heap.objects.length) =
        .ok h₁) :
      Opening s target ⟨.ok (.object s.heap.objects.length), [], { s with heap := h₁ }⟩

variable {s : State} {target env v : Value} {name : String}

theorem opening_openEnv (s : State) (target : Value) : Opening s target (openEnv target s) := by
  have hmade {v : Value} (hread : s.heap.read target "env" = .ok v) (hv : v = .undefined ∨ v = .null) :
      Opening s target ((do
        let env ← addObject { kind := .plain }
        writeProperty target "env" env .envNotCreated
        pure env : Act Value) s) := by
    have hadd : addObject { kind := .plain } s = ⟨.ok (.object s.heap.objects.length), [],
        { s with heap := (s.heap.add { kind := .plain }).2 }⟩ := rfl
    rw [Action.bind_of_ok hadd]
    cases hwrite : (s.heap.add { kind := .plain }).2.write target "env"
        (.object s.heap.objects.length) with
    | error thrown =>
      rw [Action.bind_of_error (by rw [writeProperty, hwrite])]
      exact .unmade
    | ok h₁ =>
      rw [Action.bind_of_ok (by rw [writeProperty, hwrite])]
      refine .made (Heap.lacksEnv_of_read hread hv) ?_ hwrite
      rw [Heap.receiver, hread]
      obtain rfl | rfl := hv <;> rfl
  rw [openEnv]
  cases hread : s.heap.read target "env" with
  | error thrown =>
    rw [Action.bind_of_error (by rw [readProperty, hread])]
    exact .unread
  | ok v =>
    rw [Action.bind_of_ok (by rw [readProperty, hread])]
    cases v with
    | undefined => exact hmade hread (.inl rfl)
    | null => exact hmade hread (.inr rfl)
    | object ref =>
      have hproperty := Heap.property?_of_read hread (by simp)
      have hchecked : Opening s target ((do
          if (← .read (·.heap.isObject (.object ref))) then pure (.object ref)
          else .fail .envNotObject : Act Value) s) := by
        rw [Action.bind_of_ok (Action.read_apply _ s)]
        cases s.heap.isObject (.object ref) with
        | true => exact .there hproperty (by rw [Heap.receiver, hread])
        | false => exact .unread
      exact hchecked
    | _ => exact .unread

theorem Opening.opened {w : State} (h : Opening s target ⟨.ok env, [], w⟩) :
    ∃ h₁, Opened s.heap target env h₁ ∧ w = { s with heap := h₁ } := by
  cases h with
  | there hproperty hreceiver => exact ⟨s.heap, .there hproperty hreceiver, rfl⟩
  | made hlacks hreceiver hwrite => exact ⟨_, .made hreceiver hwrite, rfl⟩

/-- How a registration goes on from an `env`: without a document it ends, and with one it makes the download
function and writes it. -/
inductive Registration (s : State) (target : Value) : Outcome Failure Event State Unit → Prop
  | unopened {f : Failure} {w : State} (hopening : Opening s target ⟨.error f, [], w⟩) :
      Registration s target ⟨.error f, [], w⟩
  | undocumented {env : Value} {f : Failure} {w : State} (hopening : Opening s target ⟨.ok env, [], w⟩) :
      Registration s target ⟨.error f, [], w⟩
  | undefined {env : Value} {f : Failure} {w : State} (hopening : Opening s target ⟨.ok env, [], w⟩) :
      Registration s target ⟨.error f, [],
        { w with heap := (w.heap.add { kind := .function (.deliver w.options) }).2 }⟩
  | defined {env : Value} {w : State} {h₂ : Heap} (hopening : Opening s target ⟨.ok env, [], w⟩)
      (hwrite : (w.heap.add { kind := .function (.deliver w.options) }).2.write env importName
        (.object w.heap.objects.length) = .ok h₂) :
      Registration s target ⟨.ok (), [], { w with heap := h₂ }⟩

theorem registration_registerImport (s : State) (target : Value) :
    Registration s target (registerImport target s) := by
  have hopening := opening_openEnv s target
  rw [registerImport]
  cases hopen : openEnv target s with
  | mk result events w =>
    rw [hopen] at hopening
    have hsilent : events = [] := by cases hopening <;> rfl
    subst hsilent
    cases result with
    | error f =>
      rw [Action.bind_of_error hopen]
      exact .unopened hopening
    | ok env =>
      rw [Action.bind_of_ok hopen]
      have hdocument := document_apply w
      cases hresult : (document w).result with
      | error f =>
        rw [hresult] at hdocument
        rw [Action.bind_of_error hdocument]
        exact .undocumented hopening
      | ok u =>
        rw [hresult] at hdocument
        have hadd : addObject { kind := .function (.deliver w.options) } w =
          ⟨.ok (.object w.heap.objects.length), [],
            { w with heap := (w.heap.add { kind := .function (.deliver w.options) }).2 }⟩ := rfl
        rw [Action.bind_of_ok hdocument, Action.bind_of_ok (Action.read_apply _ w), define,
          Action.bind_of_ok hadd, writeProperty]
        cases hwrite : (w.heap.add { kind := .function (.deliver w.options) }).2.write env importName
            (.object w.heap.objects.length) with
        | error thrown => exact Registration.undefined (w := w) hopening
        | ok h₂ => exact Registration.defined (w := w) hopening hwrite

/-- A registration that succeeds has opened `env` and got through a write of a function that it made. -/
theorem registered_of_ok {u : Unit} (h : (registerImport target s).result = .ok u) :
    ∃ env h₁ h₂, Opened s.heap target env h₁ ∧
      (h₁.add { kind := .function (.deliver s.options) }).2.write env importName
        (.object h₁.objects.length) = .ok h₂ ∧
      (registerImport target s).world = { s with heap := h₂ } := by
  have hregistration := registration_registerImport s target
  generalize registerImport target s = out at h hregistration ⊢
  cases hregistration with
  | defined hopening hwrite =>
    obtain ⟨h₁, hopened, rfl⟩ := hopening.opened
    exact ⟨_, h₁, _, hopened, hwrite, rfl⟩
  | _ => cases h

/-! ### What is seen of a registration -/

/-- An import object has an `env`, and the download function there was made from one state to the next,
for the options stored before. -/
def Visible (target : Value) (s s' : State) : Prop :=
  ∃ env ref : Nat, s'.heap.property? target "env" = some (.object env) ∧
    s'.heap.property? (.object env) importName = some (.object ref) ∧
    s.heap.kind? ref = none ∧ s'.heap.kind? ref = some (.function (.deliver s.options))

/-- An `env` that is open after the deciding object took its write, if it had to, takes writes itself. -/
theorem Opened.takes {h h₁ : Heap} (hopened : Opened h target env h₁) (htakes : h.Takes (h.receiver target)) :
    h₁.Takes env ∧ h₁.property? target "env" = some env ∧ Heap.Grown (fun _ => True) h h₁ := by
  cases hopened with
  | there hproperty hreceiver =>
    rw [hreceiver] at htakes
    exact ⟨htakes, hproperty, .refl _ h⟩
  | made hreceiver hwrite =>
    rw [hreceiver] at htakes
    have hnew : ¬ target = .object h.objects.length := by
      rintro rfl
      obtain ⟨ref, o, href, hget, -⟩ := htakes
      cases href
      rw [h.get?_length] at hget
      cases hget
    have hmade := Heap.get?_write (h.get?_add_self { kind := .plain }) (fun hsame => absurd hsame hnew)
      hwrite
    refine ⟨⟨_, _, rfl, hmade, rfl⟩, ?_, ?_⟩
    · rw [Heap.property?_write (htakes.add _) hwrite]
      exact if_pos ⟨rfl, rfl⟩
    · exact (Heap.Grown.add h fun o ho => by cases ho).trans (.write _ hwrite)

theorem visible_of_takes {u : Unit} (h : (registerImport target s).result = .ok u)
    (htakes : s.heap.Takes (s.heap.receiver target)) :
    Visible target s (registerImport target s).world := by
  obtain ⟨env, h₁, h₂, hopened, hwrite, hworld⟩ := registered_of_ok h
  rw [hworld]
  obtain ⟨henv, hproperty, hgrown⟩ := hopened.takes htakes
  have hafter := Heap.property?_write (henv.add _) hwrite
  obtain ⟨ref, o, rfl, hget, hfrozen⟩ := henv
  refine ⟨ref, h₁.objects.length, ?_, ?_, ?_, ?_⟩
  · rw [hafter, if_neg fun hname => absurd hname.2 (by decide)]
    exact Heap.property?_add_of_some hproperty _
  · rw [hafter]
    exact if_pos ⟨rfl, rfl⟩
  · cases hkind : s.heap.kind? h₁.objects.length with
    | none => rfl
    | some k =>
      have hkept := hgrown.kept hkind
      rw [h₁.kind?_length] at hkept
      cases hkept
  · refine (Heap.Grown.write (fun _ => True) hwrite).kept ?_
    rw [Heap.kind?_add]
    exact if_pos rfl

/-- Where the deciding write is refused, all objects that were there are left as they were. -/
theorem get?_of_not_takes {u : Unit} (h : (registerImport target s).result = .ok u)
    (hnot : ¬ s.heap.Takes (s.heap.receiver target)) {ref : Nat} {o : Object}
    (hget : s.heap.get? ref = some o) : (registerImport target s).world.heap.get? ref = some o := by
  obtain ⟨env, h₁, h₂, hopened, hwrite, hworld⟩ := registered_of_ok h
  rw [hworld]
  have hrefused {v : Value} (hreceiver : s.heap.receiver target = v) (hv : v = .object ref) :
      o.frozen = true := by
    cases hfrozen : o.frozen with
    | true => rfl
    | false => exact absurd ⟨ref, o, hreceiver.trans hv, hget, hfrozen⟩ hnot
  cases hopened with
  | there hproperty hreceiver =>
    exact Heap.get?_write (Heap.get?_add_of_some hget _) (hrefused hreceiver) hwrite
  | made hreceiver hmade =>
    have hkept := Heap.get?_write (Heap.get?_add_of_some hget _) (hrefused hreceiver) hmade
    refine Heap.get?_write (Heap.get?_add_of_some hkept _) (fun hnew => ?_) hwrite
    rw [← Value.object.inj hnew, s.heap.get?_length] at hget
    cases hget

theorem Visible.importedRef? {s' : State} (h : Visible (s'.importObject name) s s') :
    ∃ ref, s'.importedRef? name importName = some ref ∧ s.heap.kind? ref = none ∧
      s'.heap.kind? ref = some (.function (.deliver s.options)) := by
  obtain ⟨env, ref, henv, hfunction, hfresh, hkind⟩ := h
  refine ⟨ref, ?_, hfresh, hkind⟩
  rw [State.importedRef?, henv, Option.bind_some, hfunction]

/-- A registration that succeeds is seen where the object that has to take the deciding write is not
frozen, and calls then run the new function. Where it is frozen, no object that was there changes. An object
is frozen as a whole here: one that takes new properties, but has a download function that cannot be
replaced, is not among the objects of a page. -/
theorem registration_seen_unless_frozen (s : State) (name : String) :
    let target := s.importObject name
    let s' := (step s (.register name)).2;
    (registerImport target s).result = .ok () →
    (s.heap.Takes (s.heap.receiver target) →
      Visible target s s' ∧
      ∀ argument,
        let out := deliver (resolve (s'.heap.place argument).1) s.options
          { s' with heap := (s'.heap.place argument).2 }
        step s' (.call name importName argument) =
          ({ result := .returned (out.result.map fun _ => .undefined)
             events := out.events
             naming := some s.options }, out.world)) ∧
    (¬ s.heap.Takes (s.heap.receiver target) →
      ∀ ref o, s.heap.get? ref = some o → s'.heap.get? ref = some o) := by
  intro target s' h
  refine ⟨fun htakes => ?_, fun hnot ref o hget => get?_of_not_takes h hnot hget⟩
  have hvisible : Visible target s s' := visible_of_takes h htakes
  refine ⟨hvisible, fun argument => ?_⟩
  obtain ⟨env, h₁, h₂, -, -, hworld⟩ := registered_of_ok h
  have htarget : s'.importObject name = target := by
    show State.importObject (registerImport target s).world name = target
    rw [hworld]
    rfl
  obtain ⟨ref, href, -, hkind⟩ := (htarget ▸ hvisible : Visible _ s s').importedRef?
  exact step_call_of_deliver argument (importedFunction?_of_ref href hkind)

/-- A registration in an import object without `env`, and one in an import object that is frozen. -/
theorem registration_seen_in_new_env :
    (let s := (run {} [.nameImport "imports" (.plain [])]).2;
      Visible (s.importObject "imports") s (step s (.register "imports")).2) ∧
    (let s := (run {} [.nameImport "imports" (.object [] true false none none)]).2;
      (step s (.register "imports")).2.heap.property? (s.importObject "imports") "env" = none) := by
  refine ⟨?_, ?_⟩
  · intro s
    exact ((registration_seen_unless_frozen s "imports" rfl).1 ⟨0, _, rfl, rfl, rfl⟩).1
  · intro s
    have hnot : ¬ s.heap.Takes (s.heap.receiver (s.importObject "imports")) := by
      rintro ⟨ref, o, href, hget, hfrozen⟩
      cases href
      cases hget
      cases hfrozen
    have hkept := (registration_seen_unless_frozen s "imports" rfl).2 hnot 0 _ rfl
    have htarget : s.importObject "imports" = .object 0 := rfl
    rw [htarget, Heap.property?, hkept]
    rfl

/-- Not every registration that succeeds is seen: not one in an `env` that is frozen. -/
theorem registration_unseen_in_frozen_env :
    let s := (run {} [.nameImport "imports"
      (.plain [("env", .object [] true false none none)])]).2;
    (registerImport (s.importObject "imports") s).result = .ok () ∧
      ¬ Visible (s.importObject "imports") s (step s (.register "imports")).2 := by
  intro s
  refine ⟨rfl, ?_⟩
  rintro ⟨env, ref, henv, hfunction, -, -⟩
  cases henv
  cases hfunction

end SaveAs.Page
