import SaveAs.Json.Node

/-!
# Texts of the grammar

A text of the JSON grammar is a syntax tree written down token by token, with any blanks around each.
The grammar says nothing on where a number ends, but never puts two values next to each other, so that
what stands behind a number cannot go on with it and the tokens are found again.
-/

namespace SaveAs.Json

namespace Token

/-- Tokens one after another, with blanks around each, whether or not they can be told apart. -/
inductive Written : List Token → List Char → Prop
  | nil {blanks : List Char} (hb : Blanks blanks) : Written [] blanks
  | cons {t : Token} {ts : List Token} {blanks cs rest : List Char} (hb : Blanks blanks)
      (h : Spells t cs) (hs : Written ts rest) : Written (t :: ts) (blanks ++ (cs ++ rest))

/-- A comma or a closing bracket: what may stand behind a value. -/
def Ending : Token → Prop
  | .comma | .closing _ => True
  | _ => False

/-- Nothing, or tokens that start with one which may stand behind a value. -/
def EndsValue (ts : List Token) : Prop :=
  ∀ t ∈ ts.head?, Ending t

/-- Behind each number stands what may stand behind a value. -/
def Divided : List Token → Prop
  | [] => True
  | .number _ :: ts => EndsValue ts ∧ Divided ts
  | _ :: ts => Divided ts

variable {ts : List Token} {cs : List Char}

theorem not_continues_of_isBlank {c : Char} (h : isBlank c = true) : Literal.continues c = false := by
  simp only [isBlank, Bool.or_eq_true, beq_iff_eq] at h
  obtain ((rfl | rfl) | rfl) | rfl := h <;> decide

theorem head_of_ending {t : Token} (ht : Ending t) (h : Spells t cs) :
    ∃ c, cs = [c] ∧ Literal.continues c = false := by
  cases h with
  | closeSquare | closeCurly | comma => exact ⟨_, rfl, by decide⟩
  | _ => cases ht

theorem Written.stops (h : Written ts cs) (hends : EndsValue ts) : Literal.Stops cs := by
  have hblank {c : Char} {blanks rest : List Char} (hb : Blanks blanks)
      (hrest : ∀ d ∈ rest.head?, Literal.continues d = false) (hc : c ∈ (blanks ++ rest).head?) :
      Literal.continues c = false := by
    cases blanks with
    | nil => exact hrest c hc
    | cons b blanks =>
      obtain rfl : b = c := by simpa using hc
      exact not_continues_of_isBlank (hb b List.mem_cons_self)
  intro c hc
  cases h with
  | nil hb =>
    rw [← List.append_nil cs] at hc
    exact hblank hb (by simp) hc
  | cons hb ht hs =>
    refine hblank hb ?_ hc
    obtain ⟨d, rfl, hd⟩ := head_of_ending (hends _ rfl) ht
    intro e he
    obtain rfl : d = e := by simpa using he
    exact hd

theorem Divided.endsBefore {t : Token} {rest : List Char} (h : Divided (t :: ts))
    (hs : Written ts rest) : EndsBefore t rest := by
  cases t with
  | number l => exact hs.stops h.1
  | _ => trivial

theorem Divided.tail {t : Token} (h : Divided (t :: ts)) : Divided ts := by
  cases t with
  | number l => exact h.2
  | _ => exact h

theorem Written.spelled (h : Written ts cs) (hdivided : Divided ts) : Spelled ts cs := by
  induction h with
  | nil hb => exact .nil hb
  | cons hb ht hs ih => exact .cons hb ht (hdivided.endsBefore hs) (ih hdivided.tail)

theorem Spelled.written (h : Spelled ts cs) : Written ts cs := by
  induction h with
  | nil hb => exact .nil hb
  | cons hb ht _ _ ih => exact .cons hb ht ih

end Token

namespace Node

open Token

/-! ### Trees keep numbers apart -/

mutual

theorem divided_tokens {rest : List Token} (hends : EndsValue rest) (hrest : Divided rest) :
    ∀ n : Node, Divided (n.tokens ++ rest)
  | null | boolean _ | string _ => hrest
  | number _ => ⟨hends, hrest⟩
  | array [] => hrest
  | array (n :: items) => by
    have hends : EndsValue (.closing .square :: rest) := by rintro t ⟨⟩; trivial
    have hlater := divided_laterItems hends hrest items
    simp only [tokens, List.cons_append, List.append_assoc, List.nil_append]
    exact divided_tokens hlater.1 hlater.2 n
  | object [] => hrest
  | object ((name, n) :: members) => by
    have hends : EndsValue (.closing .curly :: rest) := by rintro t ⟨⟩; trivial
    have hlater := divided_laterMembers hends hrest members
    simp only [tokens, List.cons_append, List.append_assoc, List.nil_append]
    exact divided_tokens hlater.1 hlater.2 n

theorem divided_laterItems {rest : List Token} (hends : EndsValue rest) (hrest : Divided rest) :
    ∀ items : List Node, EndsValue (laterItems items ++ rest) ∧ Divided (laterItems items ++ rest)
  | [] => ⟨hends, hrest⟩
  | n :: items => by
    have hlater := divided_laterItems hends hrest items
    simp only [laterItems, List.cons_append, List.append_assoc]
    exact ⟨by rintro t ⟨⟩; trivial, divided_tokens hlater.1 hlater.2 n⟩

theorem divided_laterMembers {rest : List Token} (hends : EndsValue rest) (hrest : Divided rest) :
    ∀ members : List (List Piece × Node),
      EndsValue (laterMembers members ++ rest) ∧ Divided (laterMembers members ++ rest)
  | [] => ⟨hends, hrest⟩
  | (name, n) :: members => by
    have hlater := divided_laterMembers hends hrest members
    simp only [laterMembers, List.cons_append, List.append_assoc]
    exact ⟨by rintro t ⟨⟩; trivial, divided_tokens hlater.1 hlater.2 n⟩

end

/-! ### Nothing in a tree is malformed -/

mutual

theorem malformed_not_mem_tokens : ∀ n : Node, Token.malformed ∉ n.tokens
  | null | boolean _ | number _ | string _ | array [] | object [] => by simp [tokens]
  | array (n :: items) => by
    simp [tokens, malformed_not_mem_tokens n, malformed_not_mem_laterItems items]
  | object ((name, n) :: members) => by
    simp [tokens, malformed_not_mem_tokens n, malformed_not_mem_laterMembers members]

theorem malformed_not_mem_laterItems : ∀ items : List Node, Token.malformed ∉ laterItems items
  | [] => by simp [laterItems]
  | n :: items => by
    simp [laterItems, malformed_not_mem_tokens n, malformed_not_mem_laterItems items]

theorem malformed_not_mem_laterMembers : ∀ members : List (List Piece × Node),
    Token.malformed ∉ laterMembers members
  | [] => by simp [laterMembers]
  | (name, n) :: members => by
    simp [laterMembers, malformed_not_mem_tokens n, malformed_not_mem_laterMembers members]

end

/-! ### Texts of a tree -/

/-- The grammar derives the text, with this syntax tree and nothing but blanks around. -/
def Derives (n : Node) (text : String) : Prop :=
  Token.Written n.tokens text.toList

theorem scan_of_derives {n : Node} {text : String} (h : n.Derives text) :
    Token.scan text.toList = n.tokens := by
  have hdivided : Divided n.tokens := by
    have hends : EndsValue [] := by simp [EndsValue]
    rw [← List.append_nil n.tokens]
    exact divided_tokens hends trivial n
  exact scan_of_spelled (h.spelled hdivided)

/-- Every text of a node is read as the node's value. -/
theorem parse_of_derives {n : Node} {v : Value} {text : String} (h : n.Derives text)
    (hvalue : n.value? = some v) : Value.parse text = some v := by
  rw [Value.parse, scan_of_derives h, ofTokens?_tokens hvalue]

theorem derives_of_scan {n : Node} {text : String} (h : Token.scan text.toList = n.tokens) :
    n.Derives text := by
  have hspelled := Token.spelled_scan (h ▸ n.malformed_not_mem_tokens)
  rw [h] at hspelled
  exact hspelled.written

end Node

end SaveAs.Json
