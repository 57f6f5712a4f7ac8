import SaveAs.Json.Token

/-!
# How tokens are spelled

The lexical grammar of RFC 8259 as relations: `Token.Spells` between a token and its texts, and
`Token.Spelled` between a list of tokens and the texts that have them in this order, with blanks
around each. `scan_eq_iff` says that `Token.scan` reads this relation and no other.
-/

namespace SaveAs.Json

namespace Literal

def Digits (cs : List Char) : Prop :=
  cs ≠ [] ∧ ∀ c ∈ cs, Decimal.isDigit c = true

/-- Digits where a zero in front stands alone. -/
def WholeDigits (cs : List Char) : Prop :=
  Digits cs ∧ (cs.head? = some '0' → cs = ['0'])

inductive FractionSpells : Option (List Char) → List Char → Prop
  | absent : FractionSpells none []
  | present {digits : List Char} (h : Digits digits) :
      FractionSpells (some digits) ('.' :: digits)

inductive SignSpells : Bool → List Char → Prop
  | absent : SignSpells false []
  | plus : SignSpells false ['+']
  | minus : SignSpells true ['-']

inductive ExponentSpells : Option (Bool × List Char) → List Char → Prop
  | absent : ExponentSpells none []
  | present {e : Char} {negative : Bool} {sign digits : List Char} (he : e = 'e' ∨ e = 'E')
      (hs : SignSpells negative sign) (hd : Digits digits) :
      ExponentSpells (some (negative, digits)) (e :: (sign ++ digits))

inductive Spells : Literal → List Char → Prop
  | intro {negative : Bool} {whole : List Char} {fraction : Option (List Char)}
      {exponent : Option (Bool × List Char)} {f e : List Char} (hw : WholeDigits whole)
      (hf : FractionSpells fraction f) (he : ExponentSpells exponent e) :
      Spells ⟨negative, whole, fraction, exponent⟩
        ((if negative then ['-'] else []) ++ (whole ++ (f ++ e)))

/-- The characters that can go on with a number literal. -/
def continues (c : Char) : Bool :=
  Decimal.isDigit c || c == '.' || c == 'e' || c == 'E'

/-- A text that starts with nothing that goes on with a literal. -/
def Stops (cs : List Char) : Prop :=
  ∀ c ∈ cs.head?, continues c = false

/-! ### What `scan` takes -/

private theorem spanDigits_append {digits rest : List Char} (hd : ∀ c ∈ digits, Decimal.isDigit c)
    (hr : ∀ c ∈ rest.head?, Decimal.isDigit c = false) :
    spanDigits (digits ++ rest) = (digits, rest) := by
  induction digits with
  | nil =>
    cases rest with
    | nil => rfl
    | cons c rest => simp [spanDigits, hr c (by simp)]
  | cons d digits ih =>
    have ih := ih fun c hc => hd c (List.mem_cons_of_mem _ hc)
    simp only [spanDigits, Prod.mk.injEq] at ih
    simp [spanDigits, hd d List.mem_cons_self, ih.1, ih.2]

private theorem spanDigits_spec {cs digits rest : List Char} (h : spanDigits cs = (digits, rest)) :
    cs = digits ++ rest ∧ (∀ c ∈ digits, Decimal.isDigit c) ∧
      ∀ c ∈ rest.head?, Decimal.isDigit c = false := by
  cases h
  refine ⟨List.takeWhile_append_dropWhile.symm, fun c hc => ?_, fun c hc => ?_⟩
  · exact List.all_eq_true.1 List.all_takeWhile c hc
  · rw [Option.mem_def] at hc
    have := List.head?_dropWhile_not Decimal.isDigit cs
    simpa [hc] using this

theorem Stops.not_isDigit {cs : List Char} (h : Stops cs) :
    ∀ c ∈ cs.head?, Decimal.isDigit c = false := by
  intro c hc
  have := h c hc
  simp only [continues, Bool.or_eq_false_iff] at this
  exact this.1.1.1

private theorem scanWhole_append {whole rest : List Char} (hw : WholeDigits whole)
    (hr : ∀ c ∈ rest.head?, Decimal.isDigit c = false) :
    scanWhole (whole ++ rest) = some (whole, rest) := by
  unfold scanWhole
  rw [spanDigits_append hw.1.2 hr]
  split
  · next h => cases h; exact absurd rfl hw.1.1
  · next h => cases h; exact absurd (hw.2 rfl) (by simp)
  · next h => cases h; rfl

private theorem scanWhole_spec {cs whole rest : List Char} (h : scanWhole cs = some (whole, rest)) :
    cs = whole ++ rest ∧ WholeDigits whole ∧ ∀ c ∈ rest.head?, Decimal.isDigit c = false := by
  unfold scanWhole at h
  split at h
  · cases h
  · cases h
  · next digits r hnil hzero heq =>
    cases h
    obtain ⟨hcs, hd, hr⟩ := spanDigits_spec heq
    refine ⟨hcs, ⟨⟨hnil, hd⟩, fun hhead => ?_⟩, hr⟩
    match whole, hzero with
    | [_], _ => simpa using hhead
    | c :: d :: more, hzero =>
      have hc : c = '0' := by simpa using hhead
      subst hc
      exact (hzero d more rfl).elim

private theorem scanFraction_append {fraction : Option (List Char)} {f rest : List Char}
    (hf : FractionSpells fraction f) (hr : ∀ c ∈ rest.head?, Decimal.isDigit c = false)
    (hp : ∀ c ∈ rest.head?, c ≠ '.') : scanFraction (f ++ rest) = some (fraction, rest) := by
  cases hf with
  | absent =>
    unfold scanFraction
    split
    · next heq => exact absurd rfl (hp '.' (by simp at heq; simp [heq]))
    · rfl
  | present hd =>
    simp only [List.cons_append, scanFraction]
    rw [spanDigits_append hd.2 hr]
    split
    · next h => cases h; exact absurd rfl hd.1
    · next h => cases h; rfl

private theorem scanFraction_spec {cs rest : List Char} {fraction : Option (List Char)}
    (h : scanFraction cs = some (fraction, rest)) :
    ∃ f, cs = f ++ rest ∧ FractionSpells fraction f ∧
      ((∀ c ∈ cs.head?, Decimal.isDigit c = false) → ∀ c ∈ rest.head?, Decimal.isDigit c = false) := by
  unfold scanFraction at h
  split at h
  · next cs =>
    split at h
    · cases h
    · next digits r hnil heq =>
      cases h
      obtain ⟨rfl, hd, hr⟩ := spanDigits_spec heq
      exact ⟨'.' :: digits, rfl, .present ⟨hnil, hd⟩, fun _ => hr⟩
  · cases h
    exact ⟨[], rfl, .absent, id⟩

private theorem scanSign_append {negative : Bool} {sign digits rest : List Char}
    (hs : SignSpells negative sign) (hd : Digits digits) :
    scanSign (sign ++ digits ++ rest) = (negative, digits ++ rest) := by
  cases hs with
  | absent =>
    match digits, hd with
    | d :: ds, hd =>
      have hdig := hd.2 d List.mem_cons_self
      unfold scanSign
      split
      · next heq => simp at heq; rw [heq.1] at hdig; exact absurd hdig (by decide)
      · next heq => simp at heq; rw [heq.1] at hdig; exact absurd hdig (by decide)
      · rfl
    | [], hd => exact absurd rfl hd.1
  | plus => rfl
  | minus => rfl

private theorem scanSign_spec (cs : List Char) :
    ∃ sign, cs = sign ++ (scanSign cs).2 ∧ SignSpells (scanSign cs).1 sign := by
  unfold scanSign
  split
  · exact ⟨['-'], rfl, .minus⟩
  · exact ⟨['+'], rfl, .plus⟩
  · exact ⟨[], rfl, .absent⟩

private theorem scanExponent_append {exponent : Option (Bool × List Char)} {e rest : List Char}
    (he : ExponentSpells exponent e) (hr : ∀ c ∈ rest.head?, Decimal.isDigit c = false)
    (hp : ∀ c ∈ rest.head?, c ≠ 'e' ∧ c ≠ 'E') :
    scanExponent (e ++ rest) = some (exponent, rest) := by
  cases he with
  | absent =>
    match rest, hp with
    | [], _ => rfl
    | c :: rest, hp =>
      have := hp c (by simp)
      simp [scanExponent, this.1, this.2]
  | present he hs hd =>
    simp only [List.cons_append, scanExponent, if_pos he]
    rw [scanSign_append hs hd]
    simp only
    rw [spanDigits_append hd.2 hr]
    split
    · next h => cases h; exact absurd rfl hd.1
    · next h => cases h; rfl

private theorem scanExponent_spec {cs rest : List Char} {exponent : Option (Bool × List Char)}
    (h : scanExponent cs = some (exponent, rest)) :
    ∃ e, cs = e ++ rest ∧ ExponentSpells exponent e ∧
      ((∀ c ∈ cs.head?, Decimal.isDigit c = false) → ∀ c ∈ rest.head?, Decimal.isDigit c = false) := by
  unfold scanExponent at h
  split at h
  · next c cs =>
    split at h
    · next he =>
      obtain ⟨sign, hsign, hs⟩ := scanSign_spec cs
      simp only at h
      split at h
      · cases h
      · next digits r hnil heq =>
        cases h
        obtain ⟨hrest, hd, hr⟩ := spanDigits_spec heq
        refine ⟨c :: (sign ++ digits), ?_, .present he hs ⟨hnil, hd⟩, fun _ => hr⟩
        rw [hrest] at hsign
        simpa using hsign
    · cases h
      exact ⟨[], rfl, .absent, id⟩
  · cases h
    exact ⟨[], rfl, .absent, id⟩

private theorem head_exponent {exponent : Option (Bool × List Char)} {e rest : List Char}
    (he : ExponentSpells exponent e) (hr : Stops rest) :
    ∀ c ∈ (e ++ rest).head?, Decimal.isDigit c = false ∧ c ≠ '.' := by
  intro c hc
  cases he with
  | absent =>
    refine ⟨hr.not_isDigit c hc, ?_⟩
    rintro rfl
    exact absurd (hr '.' hc) (by decide)
  | @present e _ _ _ he =>
    have hc : e = c := by simpa using hc
    subst hc
    rcases he with rfl | rfl <;> decide

private theorem head_fraction {fraction : Option (List Char)} {f rest : List Char}
    (hf : FractionSpells fraction f) (hr : ∀ c ∈ rest.head?, Decimal.isDigit c = false) :
    ∀ c ∈ (f ++ rest).head?, Decimal.isDigit c = false := by
  intro c hc
  cases hf with
  | absent => exact hr c hc
  | present =>
    have hc : '.' = c := by simpa using hc
    subst hc
    decide

private theorem scanMinus_append {negative : Bool} {whole : List Char} (rest : List Char)
    (hw : WholeDigits whole) :
    scanMinus ((if negative then ['-'] else []) ++ (whole ++ rest)) = (negative, whole ++ rest) := by
  cases negative with
  | true => rfl
  | false =>
    match whole, hw with
    | d :: ds, hw =>
      have hdig := hw.1.2 d List.mem_cons_self
      have hd : d ≠ '-' := by rintro rfl; exact absurd hdig (by decide)
      simp [scanMinus, hd]
    | [], hw => exact absurd rfl hw.1.1

/-- A literal in front of a text that does not go on with it is taken off. -/
theorem scan_append {l : Literal} {cs rest : List Char} (h : Spells l cs) (hr : Stops rest) :
    scan (cs ++ rest) = some (l, rest) := by
  cases h with
  | intro hw hf he =>
    have hexp := head_exponent he hr
    have hfrac := head_fraction hf fun c hc => (hexp c hc).1
    have hstop : ∀ c ∈ rest.head?, c ≠ 'e' ∧ c ≠ 'E' := by
      intro c hc
      have := hr c hc
      constructor <;> rintro rfl <;> exact absurd this (by decide)
    unfold scan
    simp only [List.append_assoc]
    rw [scanMinus_append _ hw, scanWhole_append hw hfrac]
    simp only [Option.bind_eq_bind, Option.bind_some]
    rw [scanFraction_append hf (fun c hc => (hexp c hc).1) (fun c hc => (hexp c hc).2)]
    simp only [Option.bind_some]
    rw [scanExponent_append he hr.not_isDigit hstop]
    rfl

/-- What is taken off is spelled as a literal, and no digit comes after it. -/
theorem spells_of_scan {cs rest : List Char} {l : Literal} (h : scan cs = some (l, rest)) :
    ∃ text, Spells l text ∧ cs = text ++ rest ∧ ∀ c ∈ rest.head?, Decimal.isDigit c = false := by
  simp only [scan, Option.bind_eq_bind, Option.bind_eq_some_iff, Option.pure_def,
    Option.some.injEq, Prod.mk.injEq, Prod.exists] at h
  obtain ⟨whole, r₁, hw, fraction, r₂, hf, exponent, r₃, he, rfl, rfl⟩ := h
  obtain ⟨hcs, hw', hr₁⟩ := scanWhole_spec hw
  obtain ⟨f, rfl, hf', hr₂⟩ := scanFraction_spec hf
  obtain ⟨e, rfl, he', hr₃⟩ := scanExponent_spec he
  refine ⟨_, .intro hw' hf' he', ?_, hr₃ (hr₂ hr₁)⟩
  have hminus : cs = (if (scanMinus cs).1 then ['-'] else []) ++ (scanMinus cs).2 := by
    unfold scanMinus
    split <;> rfl
  rw [hcs] at hminus
  simpa using hminus

theorem Spells.ne_nil {l : Literal} {cs : List Char} (h : Spells l cs) : cs ≠ [] := by
  cases h with
  | intro hw => simp [hw.1.1]

theorem Spells.head {l : Literal} {c : Char} {cs : List Char} (h : Spells l (c :: cs)) :
    c = '-' ∨ Decimal.isDigit c = true := by
  generalize htext : c :: cs = text at h
  cases h with
  | @intro negative whole _ _ _ _ hw =>
    cases negative with
    | true => left; simpa using congrArg List.head? htext
    | false =>
      match whole, hw with
      | d :: ds, hw =>
        have hc : c = d := by simpa using congrArg List.head? htext
        exact .inr (hc ▸ hw.1.2 d List.mem_cons_self)
      | [], hw => exact absurd rfl hw.1.1

end Literal

namespace Piece

inductive Spells : Piece → List Char → Prop
  | char {c : Char} (hq : c ≠ '"') (hb : c ≠ '\\') (hc : 0x20 ≤ c.toNat) : Spells (.char c) [c]
  | short {e c : Char} (h : short e = some c) : Spells (.char c) ['\\', e]
  | unit {a b c d : Char} {n : Nat} (h : hex4 a b c d = some n) :
      Spells (.unit n) ['\\', 'u', a, b, c, d]

/-- A string body: the pieces one after another. -/
inductive Spelled : List Piece → List Char → Prop
  | nil : Spelled [] []
  | cons {p : Piece} {ps : List Piece} {cs body : List Char} (h : Spells p cs)
      (hs : Spelled ps body) : Spelled (p :: ps) (cs ++ body)

private theorem scan_cons {p : Piece} {cs rest : List Char} (h : Spells p cs) :
    scan (cs ++ rest) = (scan rest).map fun (ps, rest) => (p :: ps, rest) := by
  cases h with
  | @char c hq hb hc =>
    have hlow : ¬ c.toNat < 0x20 := by omega
    rw [List.singleton_append, scan.eq_5]
    · simp [hb, hlow]
      cases scan rest <;> rfl
    all_goals simp_all
  | @short e c h =>
    rw [List.cons_append, List.singleton_append, scan.eq_4]
    · simp only [h]
      cases scan rest <;> rfl
    · rintro a b c d r rfl -
      cases h
  | unit h =>
    simp only [List.cons_append, List.nil_append, scan, h]
    cases scan rest <;> rfl

/-- A body in front of its closing quote is taken off. -/
theorem scan_append {ps : List Piece} {body : List Char} (h : Spelled ps body) (rest : List Char) :
    scan (body ++ '"' :: rest) = some (ps, rest) := by
  induction h with
  | nil => simp [scan]
  | cons h _ ih => rw [List.append_assoc, scan_cons h, ih]; rfl

theorem spelled_of_scan {cs rest : List Char} {ps : List Piece} (h : scan cs = some (ps, rest)) :
    ∃ body, Spelled ps body ∧ cs = body ++ '"' :: rest := by
  fun_induction scan cs generalizing ps with
  | case1 => cases h
  | case2 r =>
    cases h
    exact ⟨[], .nil, rfl⟩
  | case3 a b c d r ih =>
    simp only [Option.bind_eq_bind, Option.bind_eq_some_iff, Option.pure_def, Option.some.injEq,
      Prod.mk.injEq, Prod.exists] at h
    obtain ⟨n, hn, ps, r', hr, rfl, rfl⟩ := h
    obtain ⟨body, hb, rfl⟩ := ih hr
    exact ⟨_, .cons (.unit hn) hb, rfl⟩
  | case4 e r _ ih =>
    simp only [Option.bind_eq_bind, Option.bind_eq_some_iff, Option.pure_def, Option.some.injEq,
      Prod.mk.injEq, Prod.exists] at h
    obtain ⟨c, hc, ps, r', hr, rfl, rfl⟩ := h
    obtain ⟨body, hb, rfl⟩ := ih hr
    exact ⟨_, .cons (.short hc) hb, rfl⟩
  | case5 => cases h
  | case6 c r hq _ _ hlow ih =>
    simp only [Option.bind_eq_bind, Option.bind_eq_some_iff, Option.pure_def, Option.some.injEq,
      Prod.mk.injEq, Prod.exists] at h
    obtain ⟨ps, r', hr, rfl, rfl⟩ := h
    obtain ⟨body, hb, rfl⟩ := ih hr
    rw [not_or] at hlow
    exact ⟨_, .cons (.char hq hlow.1 (by omega)) hb, rfl⟩

end Piece

namespace Token

/-- The texts of a token. A malformed one has none. -/
inductive Spells : Token → List Char → Prop
  | openSquare : Spells (.opening .square) ['[']
  | openCurly : Spells (.opening .curly) ['\x7b']
  | closeSquare : Spells (.closing .square) [']']
  | closeCurly : Spells (.closing .curly) ['\x7d']
  | colon : Spells .colon [':']
  | comma : Spells .comma [',']
  | null : Spells .null ['n', 'u', 'l', 'l']
  | true : Spells (.boolean true) ['t', 'r', 'u', 'e']
  | false : Spells (.boolean false) ['f', 'a', 'l', 's', 'e']
  | number {l : Literal} {cs : List Char} (h : l.Spells cs) : Spells (.number l) cs
  | string {ps : List Piece} {body : List Char} (h : Piece.Spelled ps body) :
      Spells (.string ps) ('"' :: (body ++ ['"']))

theorem Spells.ne_nil {t : Token} {cs : List Char} (h : Spells t cs) : cs ≠ [] := by
  cases h with
  | number h => exact h.ne_nil
  | _ => simp

/-- A number ends where the text cannot go on with it; any other token ends by itself. -/
def EndsBefore : Token → List Char → Prop
  | number _, rest => Literal.Stops rest
  | _, _ => True

def Blanks (cs : List Char) : Prop :=
  ∀ c ∈ cs, isBlank c = true

/-- Tokens one after another, with blanks around each. -/
inductive Spelled : List Token → List Char → Prop
  | nil {blanks : List Char} (hb : Blanks blanks) : Spelled [] blanks
  | cons {t : Token} {ts : List Token} {blanks cs rest : List Char} (hb : Blanks blanks)
      (h : Spells t cs) (he : EndsBefore t rest) (hs : Spelled ts rest) :
      Spelled (t :: ts) (blanks ++ (cs ++ rest))

theorem scan_cons (c : Char) (cs : List Char) :
    scan (c :: cs) = if isBlank c then scan cs else match next c cs with
      | none => [malformed]
      | some (t, rest) => t :: scan rest := by
  rw [scan]
  split
  · rfl
  · split <;> simp_all

theorem scan_blanks {blanks : List Char} (hb : Blanks blanks) (cs : List Char) :
    scan (blanks ++ cs) = scan cs := by
  induction blanks with
  | nil => rfl
  | cons c blanks ih =>
    rw [List.cons_append, scan_cons, if_pos (hb c List.mem_cons_self),
      ih fun c hc => hb c (List.mem_cons_of_mem _ hc)]

private theorem next_of_number {c : Char} (hc : c = '-' ∨ Decimal.isDigit c = true)
    (cs : List Char) : isBlank c = false ∧
      next c cs = (Literal.scan (c :: cs)).map fun (l, rest) => (number l, rest) := by
  have hne : ∀ d, d ≠ '-' → Decimal.isDigit d = false → c ≠ d := by
    rintro d hm hd rfl
    simp [hm, hd] at hc
  constructor
  · simp only [isBlank, Bool.or_eq_false_iff, beq_eq_false_iff_ne]
    exact ⟨⟨⟨hne _ (by decide) (by decide), hne _ (by decide) (by decide)⟩,
      hne _ (by decide) (by decide)⟩, hne _ (by decide) (by decide)⟩
  · unfold next
    split
    all_goals first
      | exact absurd rfl (hne _ (by decide) (by decide))
      | rw [if_pos hc]

/-- A token in front of a text that does not go on with it is taken off. -/
theorem next_append {t : Token} {c : Char} {cs rest : List Char} (h : Spells t (c :: cs))
    (he : EndsBefore t rest) : isBlank c = false ∧ next c (cs ++ rest) = some (t, rest) := by
  generalize htext : c :: cs = text at h
  cases h with
  | number h =>
    subst htext
    obtain ⟨hb, hn⟩ := next_of_number h.head (cs ++ rest)
    refine ⟨hb, ?_⟩
    rw [hn, ← List.cons_append, Literal.scan_append h he]
    rfl
  | string h =>
    cases htext
    refine ⟨by decide, ?_⟩
    simp only [next, List.append_assoc, List.singleton_append, Piece.scan_append h]
    rfl
  | _ =>
    cases htext
    exact ⟨by decide, by simp [next, word]⟩

private theorem eq_append_of_word {w cs rest : List Char} {t u : Token}
    (h : word w u cs = some (t, rest)) : t = u ∧ cs = w ++ rest := by
  unfold word at h
  split at h
  · next hw =>
    cases h
    obtain ⟨r, rfl⟩ := List.isPrefixOf_iff_prefix.1 hw
    simp
  · cases h

/-- What is taken off spells the token, and no digit comes after a number. -/
theorem spells_of_next {t : Token} {c : Char} {cs rest : List Char}
    (h : next c cs = some (t, rest)) :
    ∃ text, Spells t (c :: text) ∧ cs = text ++ rest ∧
      ∀ l, t = number l → ∀ d ∈ rest.head?, Decimal.isDigit d = false := by
  unfold next at h
  split at h
  · cases h; exact ⟨[], .openCurly, rfl, nofun⟩
  · cases h; exact ⟨[], .closeCurly, rfl, nofun⟩
  · cases h; exact ⟨[], .openSquare, rfl, nofun⟩
  · cases h; exact ⟨[], .closeSquare, rfl, nofun⟩
  · cases h; exact ⟨[], .colon, rfl, nofun⟩
  · cases h; exact ⟨[], .comma, rfl, nofun⟩
  · obtain ⟨rfl, rfl⟩ := eq_append_of_word h; exact ⟨_, .null, rfl, nofun⟩
  · obtain ⟨rfl, rfl⟩ := eq_append_of_word h; exact ⟨_, .true, rfl, nofun⟩
  · obtain ⟨rfl, rfl⟩ := eq_append_of_word h; exact ⟨_, .false, rfl, nofun⟩
  · simp only [Option.map_eq_some_iff, Prod.mk.injEq, Prod.exists] at h
    obtain ⟨ps, r, hr, rfl, rfl⟩ := h
    obtain ⟨body, hb, rfl⟩ := Piece.spelled_of_scan hr
    exact ⟨body ++ ['"'], .string hb, by simp, nofun⟩
  · split at h
    · simp only [Option.map_eq_some_iff, Prod.mk.injEq, Prod.exists] at h
      obtain ⟨l, r, hr, rfl, rfl⟩ := h
      obtain ⟨text, hl, htext, hd⟩ := Literal.spells_of_scan hr
      match text, hl, htext with
      | [], hl, htext => exact absurd rfl hl.ne_nil
      | _ :: text, hl, htext =>
        cases htext
        exact ⟨text, .number hl, rfl, fun _ _ => hd⟩
    · cases h

/-! ### Reading is the relation -/

theorem scan_of_spelled {ts : List Token} {cs : List Char} (h : Spelled ts cs) : scan cs = ts := by
  induction h with
  | @nil blanks hb =>
    rw [← List.append_nil blanks, scan_blanks hb]
    rw [scan]
  | @cons t ts blanks cs rest hb h he _ ih =>
    rw [scan_blanks hb]
    cases cs with
    | nil => exact absurd rfl h.ne_nil
    | cons c cs =>
      obtain ⟨hc, hn⟩ := next_append h he
      simp [scan_cons, hc, hn, ih]

private theorem Spelled.blank {ts : List Token} {cs : List Char} (h : Spelled ts cs) {c : Char}
    (hc : isBlank c = true) : Spelled ts (c :: cs) := by
  have hblanks {blanks : List Char} (hb : Blanks blanks) : Blanks (c :: blanks) := by
    intro d hd
    rcases List.mem_cons.1 hd with rfl | hd
    · exact hc
    · exact hb d hd
  cases h with
  | nil hb => exact .nil (hblanks hb)
  | cons hb h he hs => exact .cons (hblanks hb) h he hs

/-- No token starts with a character that could only go on with a literal. -/
private theorem next_eq_none {c : Char} (h : Literal.continues c = true)
    (hd : Decimal.isDigit c = false) (cs : List Char) :
    isBlank c = false ∧ next c cs = none := by
  have hc : c = '.' ∨ c = 'e' ∨ c = 'E' := by
    simpa [Literal.continues, hd, or_assoc] using h
  rcases hc with rfl | rfl | rfl <;> exact ⟨by decide, rfl⟩

theorem spelled_scan {cs : List Char} (h : malformed ∉ scan cs) : Spelled (scan cs) cs := by
  fun_induction scan cs with
  | case1 => exact .nil nofun
  | case2 c cs hc ih => exact (ih h).blank hc
  | case3 => simp at h
  | case4 c cs hc t rest hn ih =>
    have hrest := ih fun hm => h (List.mem_cons_of_mem _ hm)
    obtain ⟨text, ht, rfl, hd⟩ := spells_of_next hn
    refine @Spelled.cons t (scan rest) [] (c :: text) rest nofun ht ?_ hrest
    cases t with
    | number l =>
      intro d hmem
      cases hcont : Literal.continues d with
      | false => rfl
      | true =>
        match rest, hmem with
        | e :: r, hmem =>
          have he : e = d := by simpa using hmem
          subst he
          obtain ⟨hb, hnone⟩ := next_eq_none hcont (hd l rfl e hmem) r
          simp [scan_cons, hb, hnone] at h
    | _ => trivial

/-- A text is read as a list of tokens just if it spells them. -/
theorem scan_eq_iff {ts : List Token} (hm : malformed ∉ ts) {cs : List Char} :
    scan cs = ts ↔ Spelled ts cs :=
  ⟨fun h => h ▸ spelled_scan (h ▸ hm), scan_of_spelled⟩

end Token

end SaveAs.Json
