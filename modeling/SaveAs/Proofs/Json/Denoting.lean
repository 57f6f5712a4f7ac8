import Mathlib.Data.List.Forall2
import SaveAs.Json.Node

/-!
# What a syntax tree denotes

The members of an object have no order, so a tree denotes every value that lists them in some order;
`Node.value?` is the one that lists them as the tree does.
-/

namespace SaveAs.Json.Node

mutual

inductive Denotes : Node → Value → Prop
  | null : Denotes .null .null
  | boolean (b : Bool) : Denotes (.boolean b) (.boolean b)
  | number {l : Literal} {x : Number} (h : l.value = some x) : Denotes (.number l) (.number x)
  | string {pieces : List Piece} {s : String} (h : text? pieces = some s) :
      Denotes (.string pieces) (.string s)
  | array {items : List Node} {vs : List Value} (h : List.Forall₂ Denotes items vs) :
      Denotes (.array items) (.array vs)
  | object {members : List (List Piece × Node)} {listed vs : List (String × Value)}
      (h : List.Forall₂ MemberDenotes members listed) (horder : listed.Perm vs) :
      Denotes (.object members) (.object vs)

inductive MemberDenotes : List Piece × Node → String × Value → Prop
  | intro {pieces : List Piece} {name : String} {n : Node} {v : Value}
      (hname : text? pieces = some name) (h : Denotes n v) : MemberDenotes (pieces, n) (name, v)

end

mutual

/-- The value of a tree is one that it denotes. -/
theorem denotes_of_value? : ∀ (n : Node) {v : Value}, n.value? = some v → Denotes n v
  | null, _, h => by cases h; exact .null
  | boolean b, _, h => by cases h; exact .boolean b
  | number l, _, h => by
    obtain ⟨x, hx, rfl⟩ := Option.map_eq_some_iff.1 h
    exact .number hx
  | string pieces, _, h => by
    obtain ⟨s, hs, rfl⟩ := Option.map_eq_some_iff.1 h
    exact .string hs
  | array items, _, h => by
    obtain ⟨vs, hvs, rfl⟩ := Option.map_eq_some_iff.1 h
    exact .array (denotes_of_itemValues? items hvs)
  | object members, _, h => by
    obtain ⟨vs, hvs, rfl⟩ := Option.map_eq_some_iff.1 h
    exact .object (denotes_of_memberValues? members hvs) (.refl vs)

theorem denotes_of_itemValues? : ∀ (items : List Node) {vs : List Value},
    itemValues? items = some vs → List.Forall₂ Denotes items vs
  | [], _, h => by cases h; exact .nil
  | n :: items, _, h => by
    simp only [itemValues?, Option.bind_eq_bind, Option.bind_eq_some_iff, Option.pure_def,
      Option.some.injEq] at h
    obtain ⟨v, hv, vs, hvs, rfl⟩ := h
    exact .cons (denotes_of_value? n hv) (denotes_of_itemValues? items hvs)

theorem denotes_of_memberValues? : ∀ (members : List (List Piece × Node))
    {vs : List (String × Value)}, memberValues? members = some vs →
      List.Forall₂ MemberDenotes members vs
  | [], _, h => by cases h; exact .nil
  | (pieces, n) :: members, _, h => by
    simp only [memberValues?, Option.bind_eq_bind, Option.bind_eq_some_iff, Option.pure_def,
      Option.some.injEq] at h
    obtain ⟨name, hname, v, hv, vs, hvs, rfl⟩ := h
    exact .cons (.intro hname (denotes_of_value? n hv)) (denotes_of_memberValues? members hvs)

end

end SaveAs.Json.Node
