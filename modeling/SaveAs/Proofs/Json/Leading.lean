import SaveAs.Proofs.Json.Writing

/-!
# The beginning of a text

What a text begins with is cut into its tokens before the rest of the text is looked at, as long as it does
not end in a number, which the rest might go on with. So the tokens of an object that has been written up
to a comma do not depend on what comes after it.
-/

namespace SaveAs.Json

namespace Token

variable {t : Token} {ts : List Token} {cs : List Char}

theorem scan_token (h : Spells t cs) {rest : List Char} (he : EndsBefore t rest) :
    scan (cs ++ rest) = t :: scan rest := by
  cases cs with
  | nil => exact absurd rfl h.ne_nil
  | cons c cs =>
    obtain ⟨hblank, hnext⟩ := next_append h he
    simp [scan_cons, hblank, hnext]

/-- A text that is cut off as one token spells it. -/
theorem spells_of_next_nil {c : Char} (h : next c cs = some (t, [])) : Spells t (c :: cs) := by
  obtain ⟨text, hspells, htext, -⟩ := spells_of_next h
  rw [htext, List.append_nil]
  exact hspells

theorem Spelled.ne_nil (h : Spelled (t :: ts) cs) : cs ≠ [] := by
  cases h with
  | cons _ ht => simp [ht.ne_nil]

/-- The tokens that a text begins with are those of its beginning. -/
theorem scan_append (h : Spelled ts cs) (hlast : ∀ l, ts.getLast? ≠ some (number l)) (rest : List Char) :
    scan (cs ++ rest) = ts ++ scan rest := by
  induction h with
  | nil hb => exact scan_blanks hb rest
  | @cons t ts blanks cs behind hb ht he hs ih =>
    have hends : EndsBefore t (behind ++ rest) := by
      cases t with
      | number l =>
        cases ts with
        | nil => exact absurd rfl (hlast l)
        | cons t ts =>
          cases behind with
          | nil => exact absurd rfl hs.ne_nil
          | cons c behind => exact he
      | _ => trivial
    have hlater : ∀ l, ts.getLast? ≠ some (number l) := by
      intro l hl
      apply hlast l
      simp [List.getLast?_cons, hl]
    rw [List.append_assoc, scan_blanks hb, List.append_assoc, scan_token ht hends, ih hlater]
    rfl

/-- A text that does not begin with a quote or a blank begins with no string. -/
theorem scan_of_no_quote {c : Char} (hblank : isBlank c = false) (hquote : c ≠ '"') (rest : List Char) :
    ∃ t ts, scan (c :: rest) = t :: ts ∧ (∀ pieces, t ≠ .string pieces) ∧
      (t = .closing .curly → c = '\x7d') := by
  rw [scan_cons, if_neg (by simp [hblank])]
  cases hnext : next c rest with
  | none => exact ⟨malformed, [], rfl, nofun, nofun⟩
  | some read =>
    obtain ⟨t, behind⟩ := read
    obtain ⟨text, hspells, -, -⟩ := spells_of_next hnext
    refine ⟨t, scan behind, rfl, ?_, ?_⟩
    · rintro pieces rfl
      cases hspells
      exact hquote rfl
    · rintro rfl
      cases hspells
      rfl

end Token

namespace Node

open Token

/-- Members of an object, each with a comma behind it. -/
def ledTokens : List (List Piece × Node) → List Token
  | [] => []
  | (name, n) :: rest => .string name :: .colon :: (n.tokens ++ .comma :: ledTokens rest)

theorem divided_ledTokens (members : List (List Piece × Node)) : Divided (ledTokens members) := by
  induction members with
  | nil => trivial
  | cons member rest ih =>
    have hends : EndsValue (.comma :: ledTokens rest) := by
      rintro t ⟨⟩
      trivial
    exact divided_tokens hends (show Divided (.comma :: ledTokens rest) from ih) member.2

theorem getLast?_ledTokens (members : List (List Piece × Node)) (l : Literal) :
    (ledTokens members).getLast? ≠ some (.number l) := by
  induction members with
  | nil => nofun
  | cons member rest ih =>
    cases hlast : (ledTokens rest).getLast? with
    | none => simp [ledTokens, List.getLast?_cons, List.getLast?_append, hlast]
    | some t =>
      rintro h
      apply ih
      simpa [ledTokens, List.getLast?_cons, List.getLast?_append, hlast] using h

/-- An object written up to its opening bracket, or up to the comma behind one of its members, has these
tokens whatever comes next. -/
theorem scan_opened {members : List (List Piece × Node)} {cs : List Char}
    (h : Written (.opening .curly :: ledTokens members) cs) (rest : List Char) :
    scan (cs ++ rest) = .opening .curly :: (ledTokens members ++ scan rest) := by
  have hdivided : Divided (.opening .curly :: ledTokens members) := divided_ledTokens members
  have hlast (l : Literal) : (.opening .curly :: ledTokens members).getLast? ≠ some (.number l) := by
    intro hl
    cases hled : (ledTokens members).getLast? with
    | none => simp [List.getLast?_cons, hled] at hl
    | some t =>
      apply getLast?_ledTokens members l
      simpa [List.getLast?_cons, hled] using hl
  exact scan_append (h.spelled hdivided) hlast rest

end Node

end SaveAs.Json
