import SaveAs.Json.Parser
import SaveAs.Json.Spelling

/-!
# Syntax trees

A node is a value of a JSON text as the text spells it: strings are pieces and numbers are literals.
`Node.tokens` writes a node down and `Node.value?` is the value that it denotes, which is none where a
surrogate stands alone or a number is not finite. `ofTokens?_tokens` says that the tokens of a node are read
as the node's value.
-/

namespace SaveAs.Json

inductive Node
  | null
  | boolean (b : Bool)
  | number (l : Literal)
  | string (pieces : List Piece)
  | array (items : List Node)
  | object (members : List (List Piece × Node))

namespace Node

mutual

def tokens : Node → List Token
  | null => [.null]
  | boolean b => [.boolean b]
  | number l => [.number l]
  | string pieces => [.string pieces]
  | array [] => [.opening .square, .closing .square]
  | array (n :: rest) => .opening .square :: (n.tokens ++ (laterItems rest ++ [.closing .square]))
  | object [] => [.opening .curly, .closing .curly]
  | object ((name, n) :: rest) =>
    .opening .curly :: .string name :: .colon ::
      (n.tokens ++ (laterMembers rest ++ [.closing .curly]))

/-- The items after the first, each behind a comma. -/
def laterItems : List Node → List Token
  | [] => []
  | n :: rest => .comma :: (n.tokens ++ laterItems rest)

/-- The members after the first, each behind a comma. -/
def laterMembers : List (List Piece × Node) → List Token
  | [] => []
  | (name, n) :: rest => .comma :: .string name :: .colon :: (n.tokens ++ laterMembers rest)

end

def text? (pieces : List Piece) : Option String :=
  (Piece.join pieces).map String.ofList

mutual

def value? : Node → Option Value
  | null => some .null
  | boolean b => some (.boolean b)
  | number l => l.value.map .number
  | string pieces => (text? pieces).map .string
  | array items => (itemValues? items).map .array
  | object members => (memberValues? members).map .object

def itemValues? : List Node → Option (List Value)
  | [] => some []
  | n :: rest => do return (← n.value?) :: (← itemValues? rest)

def memberValues? : List (List Piece × Node) → Option (List (String × Value))
  | [] => some []
  | (name, n) :: rest => do return (← text? name, ← n.value?) :: (← memberValues? rest)

end

/-! ### Reading what is written -/

/-- Where the first item may stand, a value is read as the first of an array. -/
private theorem run_firstItem (n : Node) (frames : List Frame) (rest : List Token) :
    Machine.run ⟨frames, .firstItem⟩ (n.tokens ++ rest)
      = Machine.run ⟨.items [] :: frames, .value⟩ (n.tokens ++ rest) := by
  unfold tokens
  split <;> rfl

private theorem join_of_text? {pieces : List Piece} {s : String} (h : text? pieces = some s) :
    ∃ cs, Piece.join pieces = some cs ∧ String.ofList cs = s :=
  Option.map_eq_some_iff.1 h

mutual

/-- The tokens of a node deliver its value. -/
theorem run_tokens (frames : List Frame) (rest : List Token) : ∀ (n : Node) {v : Value},
    n.value? = some v →
      Machine.run ⟨frames, .value⟩ (n.tokens ++ rest) = (Machine.deliver v frames).run rest
  | null, _, h => by cases h; rfl
  | boolean b, _, h => by cases h; rfl
  | number l, _, h => by
    obtain ⟨x, hx, rfl⟩ := Option.map_eq_some_iff.1 h
    simp [tokens, Machine.run_cons, Machine.step, Machine.startValue, hx]
  | string pieces, _, h => by
    obtain ⟨x, hx, rfl⟩ := Option.map_eq_some_iff.1 h
    obtain ⟨cs, hcs, rfl⟩ := join_of_text? hx
    simp [tokens, Machine.run_cons, Machine.step, Machine.startValue, hcs]
  | array [], _, h => by cases h; rfl
  | array (n :: items), _, h => by
    obtain ⟨vs, hvs, rfl⟩ := Option.map_eq_some_iff.1 h
    simp only [itemValues?, Option.bind_eq_bind, Option.bind_eq_some_iff, Option.pure_def,
      Option.some.injEq] at hvs
    obtain ⟨v, hv, ws, hws, rfl⟩ := hvs
    simp only [tokens, List.cons_append, List.append_assoc, List.nil_append, Machine.run_cons,
      Machine.step, Machine.startValue, Option.bind_some]
    rw [run_firstItem, run_tokens _ _ n hv, Machine.deliver_items, run_laterItems _ _ _ items hws]
    rfl
  | object [], _, h => by cases h; rfl
  | object ((name, n) :: members), _, h => by
    obtain ⟨vs, hvs, rfl⟩ := Option.map_eq_some_iff.1 h
    simp only [memberValues?, Option.bind_eq_bind, Option.bind_eq_some_iff, Option.pure_def,
      Option.some.injEq] at hvs
    obtain ⟨key, hkey, v, hv, ws, hws, rfl⟩ := hvs
    obtain ⟨cs, hcs, rfl⟩ := join_of_text? hkey
    simp only [tokens, List.cons_append, List.append_assoc, List.nil_append, Machine.run_cons,
      Machine.step, Machine.startValue, Machine.readName, hcs, Option.map_some, Option.bind_some]
    rw [run_tokens _ _ n hv, Machine.deliver_members, run_laterMembers _ _ _ members hws]
    rfl

theorem run_laterItems (frames : List Frame) (done : List Value) (rest : List Token) :
    ∀ (items : List Node) {vs : List Value}, itemValues? items = some vs →
      Machine.run ⟨frames, .afterItem done⟩ (laterItems items ++ .closing .square :: rest)
        = (Machine.deliver (.array (done.reverse ++ vs)) frames).run rest
  | [], _, h => by cases h; simp [laterItems, Machine.run_cons, Machine.step]
  | n :: items, _, h => by
    simp only [itemValues?, Option.bind_eq_bind, Option.bind_eq_some_iff, Option.pure_def,
      Option.some.injEq] at h
    obtain ⟨v, hv, ws, hws, rfl⟩ := h
    simp only [laterItems, List.cons_append, List.append_assoc, Machine.run_cons, Machine.step,
      Option.bind_some]
    rw [run_tokens _ _ n hv, Machine.deliver_items, run_laterItems _ _ _ items hws]
    simp

theorem run_laterMembers (frames : List Frame) (done : List (String × Value))
    (rest : List Token) :
    ∀ (members : List (List Piece × Node)) {vs : List (String × Value)},
      memberValues? members = some vs →
        Machine.run ⟨frames, .afterMember done⟩ (laterMembers members ++ .closing .curly :: rest)
          = (Machine.deliver (.object (done.reverse ++ vs)) frames).run rest
  | [], _, h => by cases h; simp [laterMembers, Machine.run_cons, Machine.step]
  | (name, n) :: members, _, h => by
    simp only [memberValues?, Option.bind_eq_bind, Option.bind_eq_some_iff, Option.pure_def,
      Option.some.injEq] at h
    obtain ⟨key, hkey, v, hv, ws, hws, rfl⟩ := h
    obtain ⟨cs, hcs, rfl⟩ := join_of_text? hkey
    simp only [laterMembers, List.cons_append, List.append_assoc, Machine.run_cons, Machine.step,
      Machine.readName, hcs, Option.map_some, Option.bind_some]
    rw [run_tokens _ _ n hv, Machine.deliver_members, run_laterMembers _ _ _ members hws]
    simp

end

theorem ofTokens?_tokens {n : Node} {v : Value} (h : n.value? = some v) :
    Value.ofTokens? n.tokens = some v := by
  have := run_tokens [] [] n h
  rw [List.append_nil] at this
  simp [Value.ofTokens?, this, Machine.deliver]

end Node

end SaveAs.Json
