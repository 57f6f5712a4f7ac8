import SaveAs.Json.Spelling
import SaveAs.Proofs.Binary64
import SaveAs.Proofs.Decimal

/-!
# What a literal denotes

A literal without fraction and exponent is an integer if 64 bits hold it and it is no zero with a minus, and
the digits of that integer are its own. The digits collected off any other literal and the power of ten
that goes with them stay below its magnitude, but for the little that digits after the point can add in
place of integer digits left out. Both are rounded, and so is their product or quotient, so every literal
of a magnitude below `10 ^ 308` denotes a number.
-/

namespace SaveAs.Json.Literal

variable {l : Literal} {cs : List Char} {n taken : Nat}

/-! ### The digits collected -/

theorem collectWhole_lt (hn : n < UInt64.size) (cs : List Char) :
    (collectWhole n cs).1 < UInt64.size := by
  induction cs generalizing n with
  | nil => exact hn
  | cons c rest ih =>
    rw [collectWhole]
    split
    case isTrue h => exact ih h
    case isFalse => exact hn

theorem collectWhole_le (n : Nat) (cs : List Char) :
    (collectWhole n cs).1 * 10 ^ (collectWhole n cs).2 ≤ n * 10 ^ cs.length + Decimal.value cs := by
  induction cs generalizing n with
  | nil => simp [collectWhole]
  | cons c rest ih =>
    rw [collectWhole]
    split
    · apply (ih _).trans_eq
      rw [Decimal.value_cons, List.length_cons, pow_succ]
      ring
    · exact Nat.le_add_right _ _

theorem collectWhole_of_none_left (n : Nat) (cs : List Char) (h : (collectWhole n cs).2 = 0) :
    (collectWhole n cs).1 = n * 10 ^ cs.length + Decimal.value cs := by
  induction cs generalizing n with
  | nil => simp [collectWhole, Decimal.value]
  | cons c rest ih =>
    rw [collectWhole] at h ⊢
    split
    case isTrue hfits =>
      rw [if_pos hfits] at h
      rw [ih _ h, Decimal.value_cons, List.length_cons, pow_succ]
      ring
    case isFalse hfits =>
      rw [if_neg hfits] at h
      cases h

/-- Where digits are left out, the number collected is large. -/
theorem le_collectWhole_of_some_left (hcs : ∀ c ∈ cs, Decimal.isDigit c = true)
    (h : (collectWhole n cs).2 ≠ 0) : 8 ≤ (collectWhole n cs).1 := by
  induction cs generalizing n with
  | nil => exact absurd rfl h
  | cons c rest ih =>
    rw [collectWhole] at h ⊢
    split
    case isTrue hfits =>
      rw [if_pos hfits] at h
      exact ih (fun d hd => hcs d (List.mem_cons_of_mem _ hd)) h
    case isFalse hfits =>
      have hdigit := Decimal.digitValue_le (hcs c List.mem_cons_self)
      simp only [UInt64.size] at hfits
      omega

theorem collectFraction_lt (hn : n < UInt64.size) (taken : Nat) (cs : List Char) :
    (collectFraction n taken cs).1 < UInt64.size := by
  induction cs generalizing n taken with
  | nil => exact hn
  | cons c rest ih =>
    rw [collectFraction]
    split
    case isTrue h => exact ih h _
    case isFalse => exact hn

theorem collectFraction_le (n taken : Nat) (cs : List Char) :
    ((collectFraction n taken cs).1 : ℚ) / 10 ^ (collectFraction n taken cs).2 ≤
      (n + Decimal.value cs / 10 ^ cs.length) / 10 ^ taken := by
  induction cs generalizing n taken with
  | nil => simp [collectFraction, Decimal.value]
  | cons c rest ih =>
    rw [collectFraction]
    split
    · apply (ih _ _).trans_eq
      rw [Decimal.value_cons, List.length_cons, pow_succ, pow_succ]
      push_cast
      field_simp
      ring
    · gcongr
      have : (0 : ℚ) ≤ Decimal.value (c :: rest) / 10 ^ (c :: rest).length := by positivity
      linarith

/-! ### Powers of ten -/

theorem le_magnitude_greatest : (3 / 2 : ℚ) * 10 ^ greatestPower ≤ Binary64.greatest.magnitude := by
  have hnat : 3 * 10 ^ greatestPower ≤ (Binary64.mantissaBound - 1) * 2 ^ 971 * 2 := by decide +kernel
  rw [Binary64.magnitude_greatest, div_mul_eq_mul_div, div_le_iff₀ two_pos]
  exact_mod_cast hnat

theorem one_le_ten_pow (k : Nat) : (1 : ℚ) ≤ 10 ^ k :=
  one_le_pow₀ (by norm_num)

theorem two_pow_le_magnitude_greatest : (2 : ℚ) ^ 66 ≤ Binary64.greatest.magnitude := by
  have hgrowth : (10 : ℚ) ^ 20 ≤ 10 ^ greatestPower := pow_le_pow_right₀ (by norm_num) (by decide)
  linarith [le_magnitude_greatest]

/-- A number that was rounded is greater than what it was rounded from, or one, by a small part at most. Far
less than this part is true, but no more is needed of three roundings in a row. -/
theorem le_of_near {x q : ℚ} (h : |x - q| ≤ max q 1 / 2 ^ 52) : x ≤ max q 1 * (1025 / 1024) := by
  have hupper := (abs_le.1 h).2
  have hmax : q ≤ max q 1 := le_max_left q 1
  have hone : 1 ≤ max q 1 := le_max_right q 1
  linarith

theorem exists_power {k : Nat} (hk : k ≤ greatestPower) :
    ∃ p, power k = some p ∧ p.magnitude ≤ 10 ^ k * (1025 / 1024) ∧ (10 : ℚ) ^ k / 2 ≤ p.magnitude := by
  have hone := one_le_ten_pow k
  have hcast : ((Nat.pow 10 k : Nat) : ℚ) = 10 ^ k := Nat.cast_pow 10 k
  have hbelow : ((Nat.pow 10 k : Nat) : ℚ) ≤ Binary64.greatest.magnitude := by
    have hgrowth : (10 : ℚ) ^ k ≤ 10 ^ greatestPower := pow_le_pow_right₀ (by norm_num) hk
    rw [hcast]
    linarith [le_magnitude_greatest, one_le_ten_pow greatestPower]
  obtain ⟨p, hp, hnear⟩ := Binary64.ofNat_near hbelow
  rw [hcast] at hnear
  refine ⟨p, hp, ?_, ?_⟩
  · have hupper := le_of_near hnear
    rwa [max_eq_left hone] at hupper
  · have hlower := (abs_le.1 hnear).1
    rw [max_eq_left hone] at hlower
    linarith

/-- A number rounded from `n` can be multiplied by a power of ten if the exact product is little above
`10 ^ 308` at most. -/
theorem exists_mul_power {n : Nat} {x : Binary64} (hx : x.magnitude ≤ max (n : ℚ) 1 * (1025 / 1024)) {k : Nat}
    (hk : k ≤ greatestPower) (h : (n : ℚ) * 10 ^ k ≤ 9 / 8 * 10 ^ greatestPower) :
    ∃ p z, power k = some p ∧ x.mul p = some z := by
  obtain ⟨p, hp, hpower, -⟩ := exists_power hk
  have hone := one_le_ten_pow greatestPower
  have hgrowth : (10 : ℚ) ^ k ≤ 10 ^ greatestPower := pow_le_pow_right₀ (by norm_num) hk
  have hexact : max (n : ℚ) 1 * 10 ^ k ≤ 9 / 8 * 10 ^ greatestPower := by
    rw [max_mul_of_nonneg _ _ (by positivity), max_le_iff]
    constructor <;> linarith
  have hproduct : x.magnitude * p.magnitude ≤ Binary64.greatest.magnitude :=
    calc x.magnitude * p.magnitude
        ≤ max (n : ℚ) 1 * (1025 / 1024) * (10 ^ k * (1025 / 1024)) :=
          mul_le_mul hx hpower p.magnitude_nonneg (by positivity)
      _ = max (n : ℚ) 1 * 10 ^ k * (1025 / 1024 * (1025 / 1024)) := by ring
      _ ≤ 3 / 2 * 10 ^ greatestPower := by linarith
      _ ≤ Binary64.greatest.magnitude := le_magnitude_greatest
  obtain ⟨z, hz, -⟩ := Binary64.mul_near hproduct
  exact ⟨p, z, hp, hz⟩

/-- A quotient by a power of ten is no greater than twice what is divided, and by the greatest power no
greater than that itself. -/
theorem exists_div_power {x : Binary64} (hx : x.magnitude ≤ 2 ^ 65) {k : Nat} (hk : k ≤ greatestPower) :
    ∃ p z, power k = some p ∧ x.div p = some z ∧ (k = greatestPower → z.magnitude ≤ 2 ^ 65) := by
  obtain ⟨p, hp, -, hlower⟩ := exists_power hk
  have hone := one_le_ten_pow k
  have hpos : 0 < p.magnitude := by linarith
  have hbelow : x.magnitude / p.magnitude ≤ Binary64.greatest.magnitude := by
    rw [div_le_iff₀ hpos]
    have hgreatest := two_pow_le_magnitude_greatest
    nlinarith
  obtain ⟨z, hz, hnear⟩ := Binary64.div_near hpos hbelow
  refine ⟨p, z, hp, hz, ?_⟩
  rintro rfl
  have htwo : 2 ≤ p.magnitude := by
    have hgrowth : (10 : ℚ) ^ 1 ≤ 10 ^ greatestPower := pow_le_pow_right₀ (by norm_num) (by decide)
    linarith
  have hhalf : x.magnitude / p.magnitude ≤ 2 ^ 64 := by
    rw [div_le_iff₀ hpos]
    linarith
  have hmax : max (x.magnitude / p.magnitude) 1 ≤ 2 ^ 64 := max_le hhalf (by norm_num)
  linarith [le_of_near hnear]

/-- Dividing succeeds however often it is done: all but the last quotient are by the greatest power, and
they keep the bound. -/
theorem exists_scaleDown {x : Binary64} (hx : x.magnitude ≤ 2 ^ 65) (k : Nat) : ∃ z, scaleDown x k = some z := by
  induction k using Nat.strong_induction_on generalizing x with
  | _ k ih =>
    rw [scaleDown]
    split
    case isTrue hk =>
      obtain ⟨p, z, hp, hz, -⟩ := exists_div_power hx hk
      exact ⟨z, by rw [hp, Option.bind_eq_bind, Option.bind_some, hz]⟩
    case isFalse hk =>
      split
      · exact ⟨x, rfl⟩
      · obtain ⟨p, z, hp, hz, hsmall⟩ := exists_div_power hx le_rfl
        rw [hp, Option.bind_eq_bind, Option.bind_some, hz]
        apply ih _ _ (hsmall rfl)
        simp only [greatestPower] at *
        omega

/-- What is collected is scaled to a number where the product is little above `10 ^ 308` at most. -/
theorem exists_scale {n : Nat} (hn : n < UInt64.size) {k : Int}
    (h : (n : ℚ) * 10 ^ k ≤ 9 / 8 * 10 ^ greatestPower) : ∃ x, scale n k = some x := by
  have hcast : (n : ℚ) ≤ 2 ^ 64 := by
    have : n ≤ UInt64.size := hn.le
    exact_mod_cast this
  obtain ⟨x, hx, hnear⟩ := Binary64.ofNat_near (hcast.trans (by linarith [two_pow_le_magnitude_greatest]))
  have hupper := le_of_near hnear
  rw [scale, hx, Option.bind_eq_bind, Option.bind_some]
  split
  case isTrue hk =>
    obtain ⟨j, rfl⟩ := Int.eq_ofNat_of_zero_le hk
    rw [Int.toNat_natCast]
    rw [zpow_natCast] at h
    split
    case isTrue hj =>
      obtain ⟨p, z, hp, hz⟩ := exists_mul_power hupper hj h
      exact ⟨z, by rw [hp, Option.bind_some, hz]⟩
    case isFalse hj =>
      -- beyond the greatest power only a zero is small enough
      have hzero : n = 0 := by
        by_contra hne
        have hone := one_le_ten_pow greatestPower
        have hlarge : (10 : ℚ) ^ (greatestPower + 1) ≤ 10 ^ j := pow_le_pow_right₀ (by norm_num) (by omega)
        have hn : (1 : ℚ) ≤ n := by exact_mod_cast Nat.one_le_iff_ne_zero.2 hne
        rw [pow_succ] at hlarge
        nlinarith
      subst hzero
      obtain rfl : Binary64.zero false = x := Option.some.inj hx
      exact ⟨_, rfl⟩
  case isFalse hk =>
    apply exists_scaleDown
    have hmax : max (n : ℚ) 1 ≤ 2 ^ 64 := max_le hcast (by norm_num)
    linarith

/-! ### The magnitude -/

/-- The power of ten that the exponent of a literal gives. -/
def tens (l : Literal) : Int :=
  match l.exponent with
  | none => 0
  | some (negative, digits) => if negative then -(Decimal.value digits : Int) else Decimal.value digits

/-- The magnitude that a literal writes, before any rounding. -/
def magnitude (l : Literal) : ℚ :=
  Decimal.value (l.whole ++ l.fraction.getD []) * 10 ^ (l.tens - (l.fraction.getD []).length)

/-- All digits collected, and how many places they stand above the point. -/
def collected (l : Literal) : Nat × Int :=
  let (n, left) := collectWhole 0 l.whole
  let (n, taken) := collectFraction n 0 (l.fraction.getD [])
  (n, left - taken + l.tens)

theorem float_eq (l : Literal) :
    l.float = (scale l.collected.1 l.collected.2).map fun x => { x with negative := l.negative } := by
  rw [float, Option.map_eq_bind]
  rfl

theorem collected_lt (l : Literal) : l.collected.1 < UInt64.size :=
  collectFraction_lt (collectWhole_lt (by decide) l.whole) 0 (l.fraction.getD [])

theorem magnitude_eq (l : Literal) :
    l.magnitude = (Decimal.value l.whole +
      Decimal.value (l.fraction.getD []) / 10 ^ (l.fraction.getD []).length) * 10 ^ l.tens := by
  rw [magnitude, Decimal.value_append, zpow_sub₀ (by norm_num), zpow_natCast]
  push_cast
  field_simp

theorem magnitude_of_integer (hfraction : l.fraction = none) (hexponent : l.exponent = none) :
    l.magnitude = Decimal.value l.whole := by
  simp [magnitude, tens, hfraction, hexponent]

/-- Integer digits left out are worth more than all that stands after the point. -/
theorem collectWhole_add_le (hcs : ∀ c ∈ cs, Decimal.isDigit c = true) {φ : ℚ} (hφ : 0 ≤ φ) (hone : φ < 1) :
    ((collectWhole 0 cs).1 + φ) * 10 ^ (collectWhole 0 cs).2 ≤ 9 / 8 * (Decimal.value cs + φ) := by
  by_cases hleft : (collectWhole 0 cs).2 = 0
  · have hall := collectWhole_of_none_left 0 cs hleft
    rw [Nat.zero_mul, Nat.zero_add] at hall
    rw [hleft, hall, pow_zero, mul_one]
    have : (0 : ℚ) ≤ Decimal.value cs := Nat.cast_nonneg _
    linarith
  · have hlarge : (8 : ℚ) ≤ (collectWhole 0 cs).1 := by
      exact_mod_cast le_collectWhole_of_some_left hcs hleft
    have hwhole : ((collectWhole 0 cs).1 : ℚ) * 10 ^ (collectWhole 0 cs).2 ≤ Decimal.value cs := by
      have := collectWhole_le 0 cs
      rw [Nat.zero_mul, Nat.zero_add] at this
      exact_mod_cast this
    calc ((collectWhole 0 cs).1 + φ) * 10 ^ (collectWhole 0 cs).2
        ≤ 9 / 8 * (collectWhole 0 cs).1 * 10 ^ (collectWhole 0 cs).2 := by
          gcongr
          linarith
      _ ≤ 9 / 8 * Decimal.value cs := by
          rw [mul_assoc]
          gcongr
      _ ≤ 9 / 8 * (Decimal.value cs + φ) := by linarith

/-- What is collected exceeds the magnitude by an eighth at most. -/
theorem collected_le (hwhole : ∀ c ∈ l.whole, Decimal.isDigit c = true)
    (hfraction : ∀ c ∈ l.fraction.getD [], Decimal.isDigit c = true) :
    (l.collected.1 : ℚ) * 10 ^ l.collected.2 ≤ 9 / 8 * l.magnitude := by
  have hafter : (Decimal.value (l.fraction.getD []) : ℚ) / 10 ^ (l.fraction.getD []).length < 1 := by
    rw [div_lt_one₀ (by positivity)]
    exact_mod_cast Decimal.value_lt hfraction
  have htaken := collectFraction_le (collectWhole 0 l.whole).1 0 (l.fraction.getD [])
  rw [pow_zero, div_one] at htaken
  have hplaces : (10 : ℚ) ^ l.collected.2 = 10 ^ (collectWhole 0 l.whole).2 /
      10 ^ (collectFraction (collectWhole 0 l.whole).1 0 (l.fraction.getD [])).2 * 10 ^ l.tens := by
    rw [← zpow_natCast, ← zpow_natCast, ← zpow_sub₀ (by norm_num), ← zpow_add₀ (by norm_num)]
    rfl
  rw [hplaces, magnitude_eq, ← mul_assoc, ← mul_assoc]
  apply mul_le_mul_of_nonneg_right _ (by positivity)
  rw [mul_div_left_comm, mul_comm]
  apply (mul_le_mul_of_nonneg_right htaken (by positivity)).trans
  exact collectWhole_add_le hwhole (by positivity) hafter

/-- Every literal of a magnitude below `10 ^ 308` denotes a number. -/
theorem exists_float (hl : l.Spells cs) (h : l.magnitude < 10 ^ greatestPower) : ∃ x, l.float = some x := by
  have hcollected : (l.collected.1 : ℚ) * 10 ^ l.collected.2 ≤ 9 / 8 * l.magnitude := by
    cases hl with
    | intro hw hf he =>
      apply collected_le hw.1.2
      cases hf with
      | absent => nofun
      | present hd => exact hd.2
  obtain ⟨x, hx⟩ := exists_scale l.collected_lt (k := l.collected.2) (by linarith)
  exact ⟨{ x with negative := l.negative }, by rw [float_eq, hx, Option.map_some]⟩

/-! ### Integer literals -/

theorem integer_of_negative (h : l.negative = true) : l.integer = -(Decimal.value l.whole : Int) := by
  rw [integer, if_pos h]

theorem integer_of_not_negative (h : l.negative = false) : l.integer = Decimal.value l.whole := by
  rw [integer, if_neg (by rw [h]; decide)]

theorem isInteger_iff : l.isInteger = true ↔ l.fraction = none ∧ l.exponent = none ∧
    (l.negative = false ∧ l.integer < UInt64.size ∨ l.integer < 0 ∧ -signedBound ≤ l.integer) := by
  simp only [isInteger, Bool.and_eq_true, Option.isNone_iff_eq_none, and_assoc]
  refine and_congr_right fun _ => and_congr_right fun _ => ?_
  by_cases hsign : l.negative = true
  · have hinteger := integer_of_negative hsign
    rw [if_pos hsign]
    simp only [hsign, Bool.and_eq_true, decide_eq_true_eq, Bool.true_eq_false, false_and, false_or]
    omega
  · rw [Bool.not_eq_true] at hsign
    have hinteger := integer_of_not_negative hsign
    simp only [hsign, Bool.false_eq_true, if_false, decide_eq_true_eq, true_and]
    omega

theorem value_of_isInteger (h : l.isInteger = true) : l.value = some (.integer l.integer) := by
  rw [value, if_pos h]

theorem value_of_not_isInteger (h : ¬ l.isInteger = true) : l.value = l.float.map .float := by
  rw [value, if_neg h]

/-- The digits of an integer literal are those of its number. -/
theorem intText_integer (hl : l.Spells cs) (h : l.isInteger = true) :
    Decimal.intText l.integer = String.ofList cs := by
  obtain ⟨hfraction, hexponent, hsign⟩ := isInteger_iff.1 h
  cases hl with
  | @intro negative whole _ _ _ _ hw hf he =>
    obtain rfl := hfraction
    obtain rfl := hexponent
    cases hf
    cases he
    have hdigits := Decimal.digits_value hw.1.2 hw.1.1 hw.2
    cases negative with
    | true =>
      have hnegative := (hsign.resolve_left nofun).1
      rw [integer_of_negative rfl] at hnegative ⊢
      rw [Decimal.intText, if_pos hnegative, Int.natAbs_neg, Int.natAbs_natCast, Decimal.text, hdigits]
      simp
    | false =>
      rw [integer_of_not_negative rfl, Decimal.intText, if_neg (by omega), Int.natAbs_natCast, Decimal.text,
        hdigits]
      simp

end SaveAs.Json.Literal
