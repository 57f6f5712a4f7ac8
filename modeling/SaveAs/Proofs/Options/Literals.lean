import SaveAs.Proofs.Json.Leading
import SaveAs.Proofs.Json.Number
import SaveAs.Proofs.Options.Blame

/-!
# Which literals give a suffix bound

Both readers of options judge the number that a literal denotes. The suffix bound takes the integers of 32
bits, and the number of an integer literal is what its digits say, so no other literal gives a bound and
none gives another bound than it writes.
-/

namespace SaveAs.Options

open Json (Node Literal Value Piece Number Machine)
open Json.Literal (exists_float)

/-- Both readers give this answer, the one over values to what the text denotes. -/
def Answered (text : String) (answer : Except ReadError Options) : Prop :=
  ofText text = answer ∧ ∃ v, Value.parse text = some v ∧ ofValue v = answer

/-- Both readers refuse the text with this message. -/
def Refused (text message : String) : Prop :=
  ∃ e : ReadError, e.message? = some message ∧ Answered text (.error e)

variable {pieces : List Piece} {l : Literal} {cs : List Char} {text : String} {x : Number}

theorem answered_of_value (hname : Node.text? pieces = some "maxSuffix")
    (htext : (Node.object [(pieces, .number l)]).Derives text) (hvalue : l.value = some x) :
    Answered text ((Field.maxSuffix.accept (Found.ofNumber x)).map fun s => ofSettings [s]) := by
  have hnode : (Node.object [(pieces, .number l)]).value? = some (.object [("maxSuffix", .number x)]) := by
    simp [Node.value?, Node.memberValues?, hname, hvalue]
  have hread : ofValue (.object [("maxSuffix", .number x)]) =
      (Field.maxSuffix.accept (Found.ofNumber x)).map fun s => ofSettings [s] := by
    have hgiven : settingsOfMembers [("maxSuffix", .number x)] = settingsGiven [(.maxSuffix, .number x)] := rfl
    rw [ofValue, hgiven, settingsGiven_cons]
    cases hfound : Field.maxSuffix.accept (.ofNumber x) with
    | error e => simp only [Found.ofValue, hfound]; rfl
    | ok s => simp only [Found.ofValue, hfound]; rfl
  have hone : ofText text = ofValue (.object [("maxSuffix", .number x)]) := by
    apply ofText_eq_ofValue htext (Node.denotes_of_value? _ hnode)
    · exact List.nodup_singleton _
    · have hfield : fieldOf? (pieces, .number l) = some .maxSuffix := fieldOf?_eq_some_iff.2 hname
      rw [Ordered, List.filterMap_cons_some hfield]
      exact List.pairwise_singleton _ _
  exact ⟨hone.trans hread, _, Node.parse_of_derives htext hnode, hread⟩

theorem malformed_of_no_value (hname : Node.text? pieces = some "maxSuffix")
    (htext : (Node.object [(pieces, .number l)]).Derives text) (hvalue : l.value = none) :
    ofText text = .error .malformed ∧ Value.parse text = none := by
  obtain ⟨chars, hchars, -⟩ := Option.map_eq_some_iff.1 hname
  constructor
  · have htake : takeField [] .maxSuffix (.number l) = .error .malformed := by
      simp only [takeField, Node.head, Found.ofToken, hvalue]
      rfl
    have hmember := (takeMember_known hname (Field.ofKey?_key .maxSuffix) List.not_mem_nil _).trans htake
    rw [ofText_object htext, List.foldlM_cons, hmember]
    rfl
  · rw [Value.parse, Node.scan_of_derives htext]
    simp [Value.ofTokens?, Node.tokens, Node.laterMembers, Machine.run_cons, Machine.step,
      Machine.startValue, Machine.readName, hchars, hvalue]

/-- What an integer is answered with: it is the bound, or it is out of range. -/
theorem answered_of_integer (hname : Node.text? pieces = some "maxSuffix")
    (htext : (Node.object [(pieces, .number l)]).Derives text) (hvalue : l.isInteger = true) :
    (0 ≤ l.integer ∧ l.integer < UInt32.size →
      ∃ m : UInt32, m.toNat = l.integer ∧ Answered text (.ok { maxSuffix := m })) ∧
    (¬ (0 ≤ l.integer ∧ l.integer < UInt32.size) → Answered text (.error (.outOfRange l.integer))) := by
  have hanswer := answered_of_value hname htext (Literal.value_of_isInteger hvalue)
  constructor
  · intro hrange
    refine ⟨UInt32.ofNat l.integer.toNat, ?_, ?_⟩
    · rw [UInt32.toNat_ofNat_of_lt' (by omega)]
      omega
    · simp only [Found.ofNumber, Field.accept, if_pos hrange] at hanswer
      exact hanswer
  · intro hrange
    simp only [Found.ofNumber, Field.accept, if_neg hrange] at hanswer
    exact hanswer

/-- A binary64 number is refused. -/
theorem refused_of_float (hname : Node.text? pieces = some "maxSuffix")
    (htext : (Node.object [(pieces, .number l)]).Derives text) (hvalue : ¬ l.isInteger = true)
    {y : Binary64} (hfloat : l.float = some y) :
    Refused text (wrongTypeMessage ("floating point `" ++ y.render .message ++ "`") .number) := by
  have hnumber : l.value = some (.float y) := by
    rw [Literal.value_of_not_isInteger hvalue, hfloat, Option.map_some]
  exact ⟨.wrongType (.float y) .number, rfl, answered_of_value hname htext hnumber⟩

theorem Answered.eq_ok {answer : Except ReadError Options} (h : Answered text answer) {v : Value} {o : Options}
    (hok : ofText text = .ok o ∨ Value.parse text = some v ∧ ofValue v = .ok o) : answer = .ok o := by
  obtain ⟨htext, w, hw, hvalue⟩ := h
  rcases hok with hok | ⟨hv, hok⟩
  · rw [← htext, hok]
  · obtain rfl : w = v := Option.some.inj (hw.symm.trans hv)
    rw [← hvalue, hok]

/-- A literal of the member `maxSuffix` is the bound, in either reader, exactly if it is an integer without
minus that 32 bits hold. Another integer of 64 bits is out of range, and its message has the literal itself;
any other integer literal below `10 ^ 308` is a binary64 number, as is every literal with a fraction or an
exponent that denotes a number at all. Those below `10 ^ 308` do, and what denotes no number is malformed. -/
theorem suffix_literals_are_classified (hname : Node.text? pieces = some "maxSuffix") (hl : l.Spells cs)
    (htext : (Node.object [(pieces, .number l)]).Derives text) :
    -- integer literals
    (l.fraction = none → l.exponent = none → l.magnitude < 10 ^ 308 →
      (l.negative = false → l.integer < UInt32.size →
        ∃ m : UInt32, m.toNat = l.integer ∧ Answered text (.ok { maxSuffix := m })) ∧
      (UInt32.size ≤ l.integer ∧ l.integer < UInt64.size ∨ -Json.signedBound ≤ l.integer ∧ l.integer < 0 →
        Refused text ("invalid value: integer `" ++ String.ofList cs ++ "`, expected u32")) ∧
      (l.negative = true ∧ l.integer = 0 ∨ l.integer < -Json.signedBound ∨ UInt64.size ≤ l.integer →
        ∃ y, l.float = some y ∧
          Refused text (wrongTypeMessage ("floating point `" ++ y.render .message ++ "`") .number))) ∧
    -- literals with a fraction or an exponent
    (l.fraction ≠ none ∨ l.exponent ≠ none → ∀ y, l.float = some y →
      Refused text (wrongTypeMessage ("floating point `" ++ y.render .message ++ "`") .number)) ∧
    (l.magnitude < 10 ^ 308 → ∃ y, l.float = some y) ∧
    (l.value = none → ofText text = .error .malformed ∧ Value.parse text = none) ∧
    -- what is accepted
    (∀ {v : Value} {o : Options},
      ofText text = .ok o ∨ Value.parse text = some v ∧ ofValue v = .ok o →
        l.fraction = none ∧ l.exponent = none ∧ l.negative = false ∧ o.maxSuffix.toNat = l.integer) := by
  have hlarge : UInt32.size ≤ UInt64.size := by decide
  have hpositive : 0 < UInt32.size := by decide
  refine ⟨?_, ?_, exists_float hl, malformed_of_no_value hname htext, ?_⟩
  · intro hfraction hexponent hmagnitude
    refine ⟨?_, ?_, ?_⟩
    · intro hsign hrange
      have hinteger := Literal.integer_of_not_negative hsign
      have hvalue : l.isInteger = true :=
        Literal.isInteger_iff.2 ⟨hfraction, hexponent, .inl ⟨hsign, by omega⟩⟩
      exact (answered_of_integer hname htext hvalue).1 ⟨by omega, hrange⟩
    · intro hrange
      have hvalue : l.isInteger = true := by
        refine Literal.isInteger_iff.2 ⟨hfraction, hexponent, ?_⟩
        rcases hrange with ⟨hlow, hhigh⟩ | ⟨hlow, hhigh⟩
        · refine .inl ⟨?_, hhigh⟩
          by_contra hsign
          have := Literal.integer_of_negative (Bool.of_not_eq_false hsign)
          omega
        · exact .inr ⟨hhigh, hlow⟩
      have hmessage : (ReadError.outOfRange l.integer).message? =
          some ("invalid value: integer `" ++ Decimal.intText l.integer ++ "`, expected u32") := rfl
      have houtside : ¬ (0 ≤ l.integer ∧ l.integer < UInt32.size) := by omega
      refine ⟨.outOfRange l.integer, ?_, (answered_of_integer hname htext hvalue).2 houtside⟩
      rw [hmessage, Literal.intText_integer hl hvalue]
    · intro hrange
      obtain ⟨y, hfloat⟩ := exists_float hl hmagnitude
      refine ⟨y, hfloat, refused_of_float hname htext ?_ hfloat⟩
      rw [Literal.isInteger_iff]
      rintro ⟨-, -, ⟨hsign, hsmall⟩ | ⟨hnegative, hlow⟩⟩
      · have := Literal.integer_of_not_negative hsign
        rcases hrange with ⟨hsign', -⟩ | hrange
        · exact absurd (hsign.symm.trans hsign') nofun
        · omega
      · omega
  · intro hpoint y hfloat
    apply refused_of_float hname htext _ hfloat
    rw [Literal.isInteger_iff]
    rintro ⟨hfraction, hexponent, -⟩
    exact hpoint.elim (· hfraction) (· hexponent)
  · intro v o hok
    cases hnumber : l.value with
    | none =>
      obtain ⟨htext', hvalue⟩ := malformed_of_no_value hname htext hnumber
      rw [htext', hvalue] at hok
      simp at hok
    | some x =>
      by_cases hinteger : l.isInteger = true
      · obtain ⟨hinside, houtside⟩ := answered_of_integer hname htext hinteger
        by_cases hrange : 0 ≤ l.integer ∧ l.integer < UInt32.size
        · obtain ⟨m, hm, hanswer⟩ := hinside hrange
          obtain ⟨hfraction, hexponent, hsign⟩ := Literal.isInteger_iff.1 hinteger
          have hbound := hanswer.eq_ok hok
          refine ⟨hfraction, hexponent, ?_, ?_⟩
          · rcases hsign with ⟨hsign, -⟩ | ⟨hnegative, -⟩
            · exact hsign
            · omega
          · rw [← Except.ok.inj hbound]
            exact hm
        · exact absurd ((houtside hrange).eq_ok hok) nofun
      · rw [Literal.value_of_not_isInteger hinteger, Option.map_eq_some_iff] at hnumber
        obtain ⟨y, hfloat, -⟩ := hnumber
        obtain ⟨e, -, hanswer⟩ := refused_of_float hname htext hinteger hfloat
        exact absurd (hanswer.eq_ok hok) nofun

/-- The greatest bound, a negative integer, the zero that is no integer, and a hundred with an exponent. -/
theorem suffix_literals_on_both_sides :
    (∃ m : UInt32, m.toNat = (4294967295 : Int) ∧
      Answered "\x7b\"maxSuffix\": 4294967295\x7d" (.ok { maxSuffix := m })) ∧
    Refused "\x7b\"maxSuffix\": -1\x7d" "invalid value: integer `-1`, expected u32" ∧
    (∃ y : Binary64, Refused "\x7b\"maxSuffix\": -0\x7d"
      (wrongTypeMessage ("floating point `" ++ y.render .message ++ "`") .number)) ∧
    Refused "\x7b\"maxSuffix\": 1e2\x7d" "invalid type: floating point `100.0`, expected u32" := by
  have hname : Node.text? ("maxSuffix".toList.map .char) = some "maxSuffix" := by decide
  have hspells {l : Literal} {c : Char} {cs : List Char}
      (h : Json.Token.next c cs = some (.number l, [])) : l.Spells (c :: cs) := by
    cases Json.Token.spells_of_next_nil h with
    | number hl => exact hl
  have hsmall {n : Nat} (h : n < 10 ^ 10) : (n : ℚ) < 10 ^ 308 :=
    calc (n : ℚ) < 10 ^ 10 := by exact_mod_cast h
      _ ≤ 10 ^ 308 := pow_le_pow_right₀ (by norm_num) (by decide)
  refine ⟨?_, ?_, ?_, ?_⟩
  · have hl : Literal.Spells ⟨false, "4294967295".toList, none, none⟩ ('4' :: "294967295".toList) :=
      hspells (by decide +kernel)
    obtain ⟨hinteger, -⟩ := @suffix_literals_are_classified _ _ _ "\x7b\"maxSuffix\": 4294967295\x7d"
      hname hl (Node.derives_of_scan (by decide +kernel))
    refine (hinteger rfl rfl ?_).1 rfl (by decide)
    rw [Literal.magnitude_of_integer rfl rfl]
    exact hsmall (by decide)
  · have hl : Literal.Spells ⟨true, ['1'], none, none⟩ ['-', '1'] := hspells (by decide +kernel)
    obtain ⟨hinteger, -⟩ := @suffix_literals_are_classified _ _ _ "\x7b\"maxSuffix\": -1\x7d"
      hname hl (Node.derives_of_scan (by decide +kernel))
    have hmessage : "invalid value: integer `" ++ String.ofList ['-', '1'] ++ "`, expected u32" =
        "invalid value: integer `-1`, expected u32" := by decide +kernel
    rw [← hmessage]
    refine (hinteger rfl rfl ?_).2.1 (.inr (by decide))
    rw [Literal.magnitude_of_integer rfl rfl]
    exact hsmall (by decide)
  · have hl : Literal.Spells ⟨true, ['0'], none, none⟩ ['-', '0'] := hspells (by decide +kernel)
    obtain ⟨hinteger, -⟩ := @suffix_literals_are_classified _ _ _ "\x7b\"maxSuffix\": -0\x7d"
      hname hl (Node.derives_of_scan (by decide +kernel))
    have hmagnitude : Literal.magnitude ⟨true, ['0'], none, none⟩ < 10 ^ 308 := by
      rw [Literal.magnitude_of_integer rfl rfl]
      exact hsmall (by decide)
    obtain ⟨y, -, hrefused⟩ := (hinteger rfl rfl hmagnitude).2.2 (.inl ⟨rfl, by decide⟩)
    exact ⟨y, hrefused⟩
  · have hl : Literal.Spells ⟨false, ['1'], none, some (false, ['2'])⟩ ['1', 'e', '2'] :=
      hspells (by decide +kernel)
    obtain ⟨-, hfloat, -⟩ := @suffix_literals_are_classified _ _ _ "\x7b\"maxSuffix\": 1e2\x7d"
      hname hl (Node.derives_of_scan (by decide +kernel))
    have hmessage : wrongTypeMessage ("floating point `" ++
        Binary64.render .message ⟨false, 100 <<< 46, -46⟩ ++ "`") .number =
          "invalid type: floating point `100.0`, expected u32" := by decide +kernel
    rw [← hmessage]
    exact hfloat (.inr nofun) _ (by decide +kernel)

/-- The greatest binary64 number, written out with a fraction. -/
def greatestLiteral : Literal :=
  ⟨false, Nat.toDigits 10 ((Binary64.mantissaBound - 1) * 2 ^ 971), some ['0'], none⟩

def greatestText : List Char :=
  "\x7b\"maxSuffix\":".toList ++ (greatestLiteral.whole ++ ".0\x7d".toList)

/-- Its first twenty digits and a power of ten are rounded apart, and their product is no number. -/
theorem greatest_number_written_out_is_malformed :
    greatestLiteral.magnitude = Binary64.greatest.magnitude ∧
      (∀ message, ¬ Refused (String.ofList greatestText) message) ∧
      ofText (String.ofList greatestText) = .error .malformed ∧
      Value.parse (String.ofList greatestText) = none := by
  have htext : (Node.object [("maxSuffix".toList.map .char, .number greatestLiteral)]).Derives
      (String.ofList greatestText) := by
    apply Node.derives_of_scan
    rw [String.toList_ofList]
    decide +kernel
  have hnone : greatestLiteral.value = none := by decide +kernel
  obtain ⟨hmalformed, hvalue⟩ := malformed_of_no_value (by decide) htext hnone
  refine ⟨?_, ?_, hmalformed, hvalue⟩
  · have hdigits : Decimal.value (greatestLiteral.whole ++ ['0']) =
        (Binary64.mantissaBound - 1) * 2 ^ 971 * 10 := by decide +kernel
    have hplaces : (10 : ℚ) ^ (greatestLiteral.tens - (['0'] : List Char).length) = 1 / 10 := by
      norm_num [greatestLiteral, Literal.tens]
    calc greatestLiteral.magnitude
        = Decimal.value (greatestLiteral.whole ++ ['0']) *
            10 ^ (greatestLiteral.tens - (['0'] : List Char).length) := rfl
      _ = ((Binary64.mantissaBound - 1) * 2 ^ 971 * 10 : Nat) * (1 / 10) := by rw [hdigits, hplaces]
      _ = ((Binary64.mantissaBound - 1) * 2 ^ 971 : Nat) := by
          rw [Nat.cast_mul _ 10]
          ring
      _ = Binary64.greatest.magnitude := Binary64.magnitude_greatest.symm
  · rintro message ⟨e, hmessage, herror, -⟩
    obtain rfl : e = .malformed := Except.error.inj (herror.symm.trans hmalformed)
    cases hmessage

end SaveAs.Options
