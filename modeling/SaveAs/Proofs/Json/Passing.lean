import SaveAs.Json.Nesting
import SaveAs.Json.Node

/-!
# What is passed over is a value

Passing over a value follows brackets only, and yet takes exactly the tokens of one syntax tree: every
tree is passed over, and what is passed over has a tree. Both are by the stack of open brackets: inside
of it a value ends like an item, and outside of it the passing ends.
-/

namespace SaveAs.Json

namespace Nesting

/-- The tokens behind a value that is under way, if the tokens in front end it. -/
def pass (n : Nesting) : List Token → Option (List Token)
  | [] => none
  | t :: ts =>
    match n.step t with
    | .error () => none
    | .ok none => some ts
    | .ok (some n) => n.pass ts

/-- How it goes on where a value has ended inside these brackets. -/
def passAfter : List Bracket → List Token → Option (List Token)
  | [], ts => some ts
  | b :: stack, ts => pass ⟨b :: stack, .afterItem⟩ ts

variable {stack : List Bracket} {t : Token} {ts rest : List Token}

/-- A value of one token. -/
def Scalar : Token → Prop
  | .null | .boolean _ | .number _ | .string _ => True
  | _ => False

theorem pass_scalar (ht : Scalar t) (stack : List Bracket) (ts : List Token) :
    pass ⟨stack, .value⟩ (t :: ts) = passAfter stack ts := by
  cases t with
  | null | boolean | number | string => cases stack <;> rfl
  | _ => cases ht

theorem pass_openSquare (stack : List Bracket) (ts : List Token) :
    pass ⟨stack, .value⟩ (.opening .square :: ts) = pass ⟨.square :: stack, .firstItem⟩ ts := rfl

theorem pass_openCurly (stack : List Bracket) (ts : List Token) :
    pass ⟨stack, .value⟩ (.opening .curly :: ts) = pass ⟨.curly :: stack, .firstName⟩ ts := rfl

theorem pass_closeSquare (stack : List Bracket) (ts : List Token) :
    pass ⟨.square :: stack, .firstItem⟩ (.closing .square :: ts) = passAfter stack ts := by
  cases stack <;> rfl

theorem pass_closeCurly (stack : List Bracket) (ts : List Token) :
    pass ⟨.curly :: stack, .firstName⟩ (.closing .curly :: ts) = passAfter stack ts := by
  cases stack <;> rfl

theorem pass_close (b : Bracket) (stack : List Bracket) (ts : List Token) :
    pass ⟨b :: stack, .afterItem⟩ (.closing b :: ts) = passAfter stack ts := by
  cases b <;> cases stack <;> rfl

theorem pass_firstItem (ht : t ≠ .closing .square) (stack : List Bracket) (ts : List Token) :
    pass ⟨.square :: stack, .firstItem⟩ (t :: ts) = pass ⟨.square :: stack, .value⟩ (t :: ts) := by
  cases t with
  | closing b =>
    cases b with
    | square => exact absurd rfl ht
    | curly => rfl
  | _ => rfl

theorem pass_firstName (ht : t ≠ .closing .curly) (stack : List Bracket) (ts : List Token) :
    pass ⟨.curly :: stack, .firstName⟩ (t :: ts) = pass ⟨.curly :: stack, .name⟩ (t :: ts) := by
  cases t with
  | closing b =>
    cases b with
    | square => rfl
    | curly => exact absurd rfl ht
  | _ => rfl

theorem pass_firstMember (pieces : List Piece) (stack : List Bracket) (ts : List Token) :
    pass ⟨.curly :: stack, .firstName⟩ (.string pieces :: .colon :: ts) =
      pass ⟨.curly :: stack, .value⟩ ts := rfl

theorem pass_nextItem (stack : List Bracket) (ts : List Token) :
    pass ⟨.square :: stack, .afterItem⟩ (.comma :: ts) = pass ⟨.square :: stack, .value⟩ ts := rfl

theorem pass_nextMember (pieces : List Piece) (stack : List Bracket) (ts : List Token) :
    pass ⟨.curly :: stack, .afterItem⟩ (.comma :: .string pieces :: .colon :: ts) =
      pass ⟨.curly :: stack, .value⟩ ts := rfl

end Nesting

open Nesting

namespace Node

/-! ### How a tree begins -/

/-- The first token of a tree, which is all of it unless it is an array or an object. -/
def head : Node → Token
  | null => .null
  | boolean b => .boolean b
  | number l => .number l
  | string pieces => .string pieces
  | array _ => .opening .square
  | object _ => .opening .curly

theorem tokens_eq_cons (n : Node) : ∃ tail, n.tokens = n.head :: tail := by
  unfold tokens
  split <;> exact ⟨_, rfl⟩

theorem tokens_of_scalar {n : Node} (h : Scalar n.head) : n.tokens = [n.head] := by
  cases n with
  | array | object => cases h
  | _ => rfl

theorem exists_of_scalar {t : Token} (h : Scalar t) : ∃ n : Node, n.tokens = [t] := by
  cases t with
  | null => exact ⟨.null, rfl⟩
  | boolean b => exact ⟨.boolean b, rfl⟩
  | number l => exact ⟨.number l, rfl⟩
  | string pieces => exact ⟨.string pieces, rfl⟩
  | _ => cases h

theorem tokens_ne_close (n : Node) (rest : List Token) :
    ∃ t ts, n.tokens ++ rest = t :: ts ∧ t ≠ .closing .square := by
  obtain ⟨tail, htail⟩ := n.tokens_eq_cons
  exact ⟨n.head, tail ++ rest, by rw [htail, List.cons_append], by cases n <;> simp [head]⟩

/-! ### Every tree is passed over -/

mutual

theorem pass_tokens (stack : List Bracket) (rest : List Token) : ∀ n : Node,
    pass ⟨stack, .value⟩ (n.tokens ++ rest) = passAfter stack rest
  | null | boolean _ | number _ | string _ => by
    exact pass_scalar (by trivial) stack rest
  | array [] => by
    rw [tokens, List.cons_append, List.singleton_append, pass_openSquare, pass_closeSquare]
  | array (n :: items) => by
    obtain ⟨t, ts, htokens, ht⟩ := n.tokens_ne_close (laterItems items ++ .closing .square :: rest)
    simp only [tokens, List.cons_append, List.append_assoc, List.nil_append, pass_openSquare]
    rw [htokens, pass_firstItem ht, ← htokens, pass_tokens _ _ n, passAfter,
      pass_laterItems stack rest items]
  | object [] => by
    rw [tokens, List.cons_append, List.singleton_append, pass_openCurly, pass_closeCurly]
  | object ((name, n) :: members) => by
    simp only [tokens, List.cons_append, List.append_assoc, List.nil_append, pass_openCurly]
    rw [pass_firstMember, pass_tokens _ _ n, passAfter, pass_laterMembers stack rest members]

theorem pass_laterItems (stack : List Bracket) (rest : List Token) : ∀ items : List Node,
    pass ⟨.square :: stack, .afterItem⟩ (laterItems items ++ .closing .square :: rest) =
      passAfter stack rest
  | [] => by rw [laterItems, List.nil_append, pass_close]
  | n :: items => by
    simp only [laterItems, List.cons_append, List.append_assoc, pass_nextItem]
    rw [pass_tokens _ _ n, passAfter, pass_laterItems stack rest items]

theorem pass_laterMembers (stack : List Bracket) (rest : List Token) :
    ∀ members : List (List Piece × Node),
      pass ⟨.curly :: stack, .afterItem⟩ (laterMembers members ++ .closing .curly :: rest) =
        passAfter stack rest
  | [] => by rw [laterMembers, List.nil_append, pass_close]
  | (name, n) :: members => by
    simp only [laterMembers, List.cons_append, List.append_assoc, pass_nextMember]
    rw [pass_tokens _ _ n, passAfter, pass_laterMembers stack rest members]

end

theorem pass_start (n : Node) (rest : List Token) : Nesting.start.pass (n.tokens ++ rest) = some rest :=
  pass_tokens [] rest n

/-! ### What is passed over has a tree -/

theorem name_of_pass {stack : List Bracket} {ts rest : List Token}
    (h : pass ⟨stack, .name⟩ ts = some rest) :
    ∃ name ts', ts = .string name :: .colon :: ts' ∧ pass ⟨stack, .value⟩ ts' = some rest := by
  match ts with
  | [] => cases h
  | .string name :: [] => cases h
  | .string name :: t :: ts =>
    cases t with
    | colon => exact ⟨name, ts, rfl, h⟩
    | _ => cases h
  | .opening _ :: _ | .closing _ :: _ | .colon :: _ | .comma :: _ | .null :: _ | .boolean _ :: _
  | .number _ :: _ | .malformed :: _ => cases h

mutual

theorem exists_of_pass {stack : List Bracket} {ts rest : List Token}
    (h : pass ⟨stack, .value⟩ ts = some rest) :
    ∃ n ts', ts = tokens n ++ ts' ∧ passAfter stack ts' = some rest := by
  match ts with
  | [] => cases h
  | .null :: ts => exact ⟨.null, ts, rfl, (pass_scalar (by trivial) stack ts).symm.trans h⟩
  | .boolean b :: ts => exact ⟨.boolean b, ts, rfl, (pass_scalar (by trivial) stack ts).symm.trans h⟩
  | .number l :: ts => exact ⟨.number l, ts, rfl, (pass_scalar (by trivial) stack ts).symm.trans h⟩
  | .string pieces :: ts =>
    exact ⟨.string pieces, ts, rfl, (pass_scalar (by trivial) stack ts).symm.trans h⟩
  | .opening .square :: [] => cases h
  | .opening .square :: t :: ts =>
    rw [pass_openSquare] at h
    by_cases ht : t = .closing .square
    · subst ht
      rw [pass_closeSquare] at h
      exact ⟨.array [], ts, rfl, h⟩
    · rw [pass_firstItem ht] at h
      obtain ⟨n, ts₁, hn, hlater⟩ := exists_of_pass h
      have hshorter : ts₁.length < ts.length + 1 + 1 := by
        have hlength := congrArg List.length hn
        simp only [List.length_cons, List.length_append] at hlength
        omega
      obtain ⟨items, ts₂, hitems, hrest⟩ := laterItems_of_pass hlater
      refine ⟨.array (n :: items), ts₂, ?_, hrest⟩
      rw [hn, hitems]
      simp [tokens]
  | .opening .curly :: [] => cases h
  | .opening .curly :: t :: ts =>
    rw [pass_openCurly] at h
    by_cases ht : t = .closing .curly
    · subst ht
      rw [pass_closeCurly] at h
      exact ⟨.object [], ts, rfl, h⟩
    · rw [pass_firstName ht] at h
      obtain ⟨name, ts₀, hname, hvalue⟩ := name_of_pass h
      have hshort : ts₀.length < ts.length + 1 + 1 := by
        have hlength := congrArg List.length hname
        simp only [List.length_cons] at hlength
        omega
      obtain ⟨n, ts₁, hn, hlater⟩ := exists_of_pass hvalue
      have hshorter : ts₁.length < ts.length + 1 + 1 := by
        have hlength := congrArg List.length hn
        simp only [List.length_append] at hlength
        omega
      obtain ⟨members, ts₂, hmembers, hrest⟩ := laterMembers_of_pass hlater
      refine ⟨.object ((name, n) :: members), ts₂, ?_, hrest⟩
      rw [hname, hn, hmembers]
      simp [tokens]
  | .closing _ :: _ | .colon :: _ | .comma :: _ | .malformed :: _ => cases h
termination_by ts.length

theorem laterItems_of_pass {stack : List Bracket} {ts rest : List Token}
    (h : pass ⟨.square :: stack, .afterItem⟩ ts = some rest) :
    ∃ items ts', ts = laterItems items ++ .closing .square :: ts' ∧ passAfter stack ts' = some rest := by
  match ts with
  | [] => cases h
  | .closing .square :: ts =>
    rw [pass_close] at h
    exact ⟨[], ts, rfl, h⟩
  | .comma :: ts =>
    rw [pass_nextItem] at h
    obtain ⟨n, ts₁, rfl, hlater⟩ := exists_of_pass h
    obtain ⟨items, ts₂, rfl, hrest⟩ := laterItems_of_pass hlater
    exact ⟨n :: items, ts₂, by simp [laterItems], hrest⟩
  | .closing .curly :: _ | .opening _ :: _ | .colon :: _ | .null :: _ | .boolean _ :: _
  | .number _ :: _ | .string _ :: _ | .malformed :: _ => cases h
termination_by ts.length

theorem laterMembers_of_pass {stack : List Bracket} {ts rest : List Token}
    (h : pass ⟨.curly :: stack, .afterItem⟩ ts = some rest) :
    ∃ members ts', ts = laterMembers members ++ .closing .curly :: ts' ∧
      passAfter stack ts' = some rest := by
  match ts with
  | [] => cases h
  | .closing .curly :: ts =>
    rw [pass_close] at h
    exact ⟨[], ts, rfl, h⟩
  | .comma :: ts =>
    obtain ⟨name, ts₀, rfl, hvalue⟩ := name_of_pass (show pass ⟨.curly :: stack, .name⟩ ts = some rest from h)
    obtain ⟨n, ts₁, rfl, hlater⟩ := exists_of_pass hvalue
    obtain ⟨members, ts₂, rfl, hrest⟩ := laterMembers_of_pass hlater
    exact ⟨(name, n) :: members, ts₂, by simp [laterMembers], hrest⟩
  | .closing .square :: _ | .opening _ :: _ | .colon :: _ | .null :: _ | .boolean _ :: _
  | .number _ :: _ | .string _ :: _ | .malformed :: _ => cases h
termination_by ts.length

end

theorem exists_of_pass_start {ts rest : List Token} (h : Nesting.start.pass ts = some rest) :
    ∃ n : Node, ts = n.tokens ++ rest := by
  obtain ⟨n, ts', hn, hrest⟩ := exists_of_pass h
  exact ⟨n, by rw [hn, Option.some.inj hrest]⟩

end Node

end SaveAs.Json
