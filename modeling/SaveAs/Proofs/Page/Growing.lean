import SaveAs.Page.Heap

/-!
# Heaps that only grow

Objects keep their kind, so a delivering function keeps its options. Writes change properties, and a
literal brings functions that do nothing.
-/

namespace SaveAs.Page

namespace Heap

def kind? (h : Heap) (ref : Nat) : Option Kind :=
  (h.get? ref).map (·.kind)

theorem function?_eq_some_iff (h : Heap) (ref : Nat) (f : Function) :
    h.function? (.object ref) = some f ↔ h.kind? ref = some (.function f) := by
  rw [function?, kind?]
  cases h.get? ref with
  | none => simp
  | some o =>
    obtain ⟨kind, properties, frozen, bare, getThrows, setThrows⟩ := o
    cases kind <;> simp

/-- A heap with more objects, none of another kind than before; the options of each new delivering
function satisfy a condition. -/
structure Grown (p : Options → Prop) (h h' : Heap) : Prop where
  kept : ∀ {ref k}, h.kind? ref = some k → h'.kind? ref = some k
  fresh : ∀ {ref o}, h'.kind? ref = some (.function (.deliver o)) → h.kind? ref = none → p o

variable {p q : Options → Prop} {h h₁ h₂ : Heap}

theorem Grown.refl (p : Options → Prop) (h : Heap) : Grown p h h where
  kept hkind := hkind
  fresh hkind hnone := by rw [hnone] at hkind; cases hkind

theorem Grown.trans (h₁₂ : Grown p h h₁) (h₂₃ : Grown p h₁ h₂) : Grown p h h₂ where
  kept hkind := h₂₃.kept (h₁₂.kept hkind)
  fresh {ref o} hkind hnone := by
    cases hmiddle : h₁.kind? ref with
    | none => exact h₂₃.fresh hkind hmiddle
    | some k =>
      have hsame := h₂₃.kept hmiddle
      rw [hkind] at hsame
      rw [← hsame] at hmiddle
      exact h₁₂.fresh hmiddle hnone

theorem Grown.mono (hpq : ∀ o, p o → q o) (hgrown : Grown p h h₁) : Grown q h h₁ where
  kept hkind := hgrown.kept hkind
  fresh hkind hnone := hpq _ (hgrown.fresh hkind hnone)

theorem kind?_add (h : Heap) (object : Object) (ref : Nat) :
    (h.add object).2.kind? ref = if ref = h.objects.length then some object.kind else h.kind? ref := by
  rw [kind?, get?_add]
  split <;> rfl

theorem kind?_length (h : Heap) : h.kind? h.objects.length = none := by
  rw [kind?, get?, List.getElem?_eq_none (Nat.le_refl _)]
  rfl

theorem Grown.add (h : Heap) {object : Object}
    (hobject : ∀ o, object.kind = .function (.deliver o) → p o) : Grown p h (h.add object).2 where
  kept {ref k} hkind := by
    rw [kind?_add, if_neg, hkind]
    rintro rfl
    rw [kind?_length] at hkind
    cases hkind
  fresh {ref o} hkind hnone := by
    rw [kind?_add] at hkind
    split at hkind
    · exact hobject o (Option.some.inj hkind)
    · rw [hnone] at hkind
      cases hkind

theorem Grown.of_kind? (p : Options → Prop) (hkinds : ∀ ref, h₁.kind? ref = h.kind? ref) :
    Grown p h h₁ where
  kept {ref k} hkind := by rw [hkinds, hkind]
  fresh {ref o} hkind hnone := by
    rw [hkinds, hnone] at hkind
    cases hkind

theorem kind?_replace {ref : Nat} {object object' : Object} (hget : h.get? ref = some object)
    (hkind : object'.kind = object.kind) (other : Nat) :
    (h.replace ref object').kind? other = h.kind? other := by
  by_cases hother : other = ref
  · subst hother
    have hself : (h.replace other object').get? other = some object' := by
      obtain ⟨hlt, -⟩ := List.getElem?_eq_some_iff.1 hget
      exact List.getElem?_set_self hlt
    rw [kind?, kind?, hself, hget, Option.map_some, Option.map_some, hkind]
  · rw [kind?, kind?, get?_replace_of_ne h object' hother]

theorem Grown.write {target v : Value} {name : String} (p : Options → Prop)
    (hwrite : h.write target name v = .ok h₁) : Grown p h h₁ := by
  cases target with
  | object ref =>
    rw [Heap.write] at hwrite
    split at hwrite
    · cases hwrite
      exact .refl p _
    · rename_i object hget
      split at hwrite
      · cases hwrite
      · split at hwrite
        · cases hwrite
          exact .refl p _
        · cases hwrite
          exact .of_kind? p (kind?_replace hget rfl)
  | _ => cases hwrite

mutual

theorem Grown.place (p : Options → Prop) (h : Heap) (v : Literal) : Grown p h (h.place v).2 := by
  match v with
  | .undefined | .null | .boolean _ | .number _ | .string _ =>
    rw [Heap.place]
    exact .refl p h
  | .function => exact Grown.add h (by simp)
  | .array items =>
    rw [Heap.place]
    exact (Grown.placeItems p h 0 items).trans (Grown.add _ (by simp))
  | .object properties frozen bare getThrows setThrows =>
    rw [Heap.place]
    exact (Grown.placeProperties p h properties).trans (Grown.add _ (by simp))
  | .error name message =>
    rw [Heap.place]
    exact ((Grown.place p h name).trans (Grown.place p _ message)).trans (Grown.add _ (by simp))

theorem Grown.placeItems (p : Options → Prop) (h : Heap) (i : Nat) (items : List Literal) :
    Grown p h (h.placeItems i items).2 := by
  match items with
  | [] => exact .refl p h
  | v :: rest => exact (Grown.place p h v).trans (Grown.placeItems p _ (i + 1) rest)

theorem Grown.placeProperties (p : Options → Prop) (h : Heap) (properties : List (String × Literal)) :
    Grown p h (h.placeProperties properties).2 := by
  match properties with
  | [] => exact .refl p h
  | (name, v) :: rest => exact (Grown.place p h v).trans (Grown.placeProperties p _ rest)

end

end Heap

end SaveAs.Page
