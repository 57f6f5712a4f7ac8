import SaveAs.Json.Number
import SaveAs.Json.Quoted

/-!
# Tokens

`Token.scan` cuts a text into the tokens of JSON and drops the blanks between them. It never fails:
where no token can be read the list ends in `malformed`, so a reader meets the defect only after all
the tokens in front of it. Strings are cut out but not yet judged: whether their surrogates pair is
asked by `Piece.join`, as whether a number is finite is asked by `Literal.value`.
-/

namespace SaveAs.Json

inductive Bracket
  | square
  | curly
  deriving DecidableEq, Repr

inductive Token
  | opening (b : Bracket)
  | closing (b : Bracket)
  | colon
  | comma
  | null
  | boolean (b : Bool)
  | number (l : Literal)
  | string (pieces : List Piece)
  | malformed
  deriving DecidableEq, Repr

namespace Token

def isBlank (c : Char) : Bool :=
  c == ' ' || c == '\t' || c == '\n' || c == '\r'

def word (w : List Char) (t : Token) (cs : List Char) : Option (Token × List Char) :=
  if w.isPrefixOf cs then some (t, cs.drop w.length) else none

/-- The token that starts with `c`, and the rest. -/
def next (c : Char) (cs : List Char) : Option (Token × List Char) :=
  match c with
  | '{' => some (opening .curly, cs)
  | '}' => some (closing .curly, cs)
  | '[' => some (opening .square, cs)
  | ']' => some (closing .square, cs)
  | ':' => some (colon, cs)
  | ',' => some (comma, cs)
  | 'n' => word ['u', 'l', 'l'] null cs
  | 't' => word ['r', 'u', 'e'] (boolean true) cs
  | 'f' => word ['a', 'l', 's', 'e'] (boolean false) cs
  | '"' => (Piece.scan cs).map fun (pieces, rest) => (string pieces, rest)
  | c =>
    if c = '-' ∨ Decimal.isDigit c then
      (Literal.scan (c :: cs)).map fun (l, rest) => (number l, rest)
    else none

end Token

/-! ### Each step shortens the text -/

theorem Literal.length_scanWhole {cs digits rest : List Char}
    (h : scanWhole cs = some (digits, rest)) : rest.length < cs.length := by
  have hlen := congrArg List.length (List.takeWhile_append_dropWhile (p := Decimal.isDigit) (l := cs))
  rw [List.length_append] at hlen
  cases hd : cs.takeWhile Decimal.isDigit with
  | nil => simp [scanWhole, spanDigits, hd] at h
  | cons d ds =>
    rw [hd, List.length_cons] at hlen
    simp only [scanWhole, spanDigits, hd] at h
    split at h
    · cases h
    · cases h
    · next heq =>
      cases h
      cases heq
      omega

theorem Literal.length_scanFraction {cs rest : List Char} {f : Option (List Char)}
    (h : scanFraction cs = some (f, rest)) : rest.length ≤ cs.length := by
  unfold scanFraction at h
  split at h
  · next cs =>
    split at h
    · cases h
    · next heq =>
      cases h
      cases heq
      have := (List.dropWhile_suffix (l := cs) Decimal.isDigit).length_le
      simp only [List.length_cons]
      omega
  · cases h
    exact Nat.le_refl _

theorem Literal.length_scanExponent {cs rest : List Char} {e : Option (Bool × List Char)}
    (h : scanExponent cs = some (e, rest)) : rest.length ≤ cs.length := by
  unfold scanExponent at h
  split at h
  · next c cs =>
    split at h
    · have hsign : (scanSign cs).2.length ≤ cs.length := by
        unfold scanSign; split <;> simp
      simp only at h
      split at h
      · cases h
      · next heq =>
        cases h
        cases heq
        have := (List.dropWhile_suffix (l := (scanSign cs).2) Decimal.isDigit).length_le
        simp only [List.length_cons]
        omega
    · cases h
      exact Nat.le_refl _
  · cases h
    exact Nat.le_refl _

theorem Literal.length_scan {cs rest : List Char} {l : Literal}
    (h : scan cs = some (l, rest)) : rest.length < cs.length := by
  simp only [scan, Option.bind_eq_bind, Option.bind_eq_some_iff, Option.pure_def,
    Option.some.injEq, Prod.mk.injEq, Prod.exists] at h
  obtain ⟨whole, r₁, hw, f, r₂, hf, e, r₃, he, -, rfl⟩ := h
  have hm : (scanMinus cs).2.length ≤ cs.length := by
    unfold scanMinus; split <;> simp
  have h₁ := length_scanWhole hw
  have h₂ := length_scanFraction hf
  have h₃ := length_scanExponent he
  omega

theorem Piece.length_scan {cs rest : List Char} {pieces : List Piece}
    (h : scan cs = some (pieces, rest)) : rest.length < cs.length := by
  fun_induction scan cs generalizing pieces with
  | case1 => cases h
  | case2 r => cases h; simp
  | case3 a b c d r ih =>
    simp only [Option.bind_eq_bind, Option.bind_eq_some_iff, Option.pure_def, Option.some.injEq,
      Prod.mk.injEq, Prod.exists] at h
    obtain ⟨n, -, ps, r', hr, -, rfl⟩ := h
    have := ih hr
    simp only [List.length_cons]
    omega
  | case4 e r _ ih =>
    simp only [Option.bind_eq_bind, Option.bind_eq_some_iff, Option.pure_def, Option.some.injEq,
      Prod.mk.injEq, Prod.exists] at h
    obtain ⟨n, -, ps, r', hr, -, rfl⟩ := h
    have := ih hr
    simp only [List.length_cons]
    omega
  | case5 => cases h
  | case6 c r _ _ _ _ ih =>
    simp only [Option.bind_eq_bind, Option.bind_eq_some_iff, Option.pure_def, Option.some.injEq,
      Prod.mk.injEq, Prod.exists] at h
    obtain ⟨ps, r', hr, -, rfl⟩ := h
    have := ih hr
    simp only [List.length_cons]
    omega

theorem Token.length_next {c : Char} {cs rest : List Char} {t : Token}
    (h : next c cs = some (t, rest)) : rest.length ≤ cs.length := by
  have hword {w : List Char} {u : Token} (h : word w u cs = some (t, rest)) :
      rest.length ≤ cs.length := by
    unfold word at h
    split at h
    · cases h; simp
    · cases h
  unfold next at h
  split at h
  all_goals first
    | exact hword h
    | (cases h; exact Nat.le_refl _)
    | skip
  · simp only [Option.map_eq_some_iff, Prod.mk.injEq, Prod.exists] at h
    obtain ⟨ps, r, hr, -, rfl⟩ := h
    exact Nat.le_of_lt (Piece.length_scan hr)
  · split at h
    · simp only [Option.map_eq_some_iff, Prod.mk.injEq, Prod.exists] at h
      obtain ⟨l, r, hr, -, rfl⟩ := h
      have := Literal.length_scan hr
      simp only [List.length_cons] at this
      omega
    · cases h

namespace Token

/-- The tokens of a text, up to the first place where there is none. -/
def scan : List Char → List Token
  | [] => []
  | c :: cs =>
    if isBlank c then scan cs
    else match _next : next c cs with
      | none => [malformed]
      | some (t, rest) => t :: scan rest
termination_by cs => cs.length
decreasing_by
  · simp
  · have := length_next _next
    simp only [List.length_cons]
    omega

end Token

end SaveAs.Json
