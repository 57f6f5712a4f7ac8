import Mathlib.Algebra.Order.Field.Power
import Mathlib.Data.Rat.Cast.Order
import Mathlib.Tactic.FieldSimp
import Mathlib.Tactic.Linarith
import Mathlib.Tactic.Positivity
import Mathlib.Tactic.Ring
import SaveAs.Binary64.Basic

/-!
# Rounding to a binary64 number

A quotient is rounded to a multiple of one unit, a power of two that is by 52 places below the quotient's
leading bit or the least there is. What is found lies within a unit of the quotient, and it is a number
wherever the quotient is no greater than the greatest one. The arithmetic on numbers is this rounding of
exact results, so it has the same bounds.
-/

namespace SaveAs.Binary64

def magnitude (x : Binary64) : ℚ := x.mantissa * 2 ^ x.exponent

def greatest : Binary64 := ⟨false, mantissaBound - 1, greatestExponent⟩

variable {negative : Bool} {num den n d : Nat} {x y : Binary64}

theorem mantissaBound_eq : mantissaBound = 9007199254740992 := by
  decide

theorem magnitude_greatest : greatest.magnitude = ((mantissaBound - 1) * 2 ^ 971 : Nat) := by
  rw [magnitude, Nat.cast_mul, Nat.cast_pow, ← zpow_natCast]
  rfl

theorem magnitude_greatest_lt : greatest.magnitude < 2 ^ (1024 : Int) := by
  have hnat : (mantissaBound - 1) * 2 ^ 971 < 2 ^ 1024 := by decide +kernel
  rw [magnitude_greatest]
  exact_mod_cast hnat

/-! ### Powers of two -/

theorem two_zpow_eq (e : Int) : (2 : ℚ) ^ e = 2 ^ e.toNat / 2 ^ (-e).toNat := by
  have h : e = (e.toNat : Int) - ((-e).toNat : Int) := by omega
  conv_lhs => rw [h]
  rw [zpow_sub₀ two_ne_zero, zpow_natCast, zpow_natCast]

theorem magnitude_eq (x : Binary64) : x.magnitude = x.numerator / x.denominator := by
  rw [magnitude, numerator, denominator, two_zpow_eq, Nat.shiftLeft_eq, Nat.shiftLeft_eq, one_mul]
  push_cast
  rw [mul_div_assoc]

theorem denominator_pos (x : Binary64) : 0 < x.denominator := by
  rw [denominator, Nat.shiftLeft_eq, one_mul]
  exact Nat.two_pow_pos _

theorem magnitude_nonneg (x : Binary64) : 0 ≤ x.magnitude := by
  unfold magnitude
  positivity

theorem two_zpow_pos (e : Int) : (0 : ℚ) < 2 ^ e := by
  positivity

/-- A quotient in units of `2 ^ e`, as it is shifted there. -/
theorem shifted_div (num den : Nat) (e : Int) :
    ((num <<< (-e).toNat : Nat) : ℚ) / (den <<< e.toNat : Nat) = num / den / 2 ^ e := by
  rw [two_zpow_eq, Nat.shiftLeft_eq, Nat.shiftLeft_eq]
  push_cast
  field_simp

theorem leadingBit_spec (hnum : num ≠ 0) (hden : den ≠ 0) :
    (2 : ℚ) ^ leadingBit num den ≤ num / den ∧ (num / den : ℚ) < 2 ^ (leadingBit num den + 1) := by
  have hden' : (0 : ℚ) < den := by positivity
  have hnumLow : (2 : ℚ) ^ (num.log2 : Int) ≤ num := by
    rw [zpow_natCast]
    exact_mod_cast Nat.log2_self_le hnum
  have hnumHigh : (num : ℚ) < 2 ^ (num.log2 + 1 : Int) := by
    have := @Nat.lt_log2_self num
    exact_mod_cast this
  have hdenLow : (2 : ℚ) ^ (den.log2 : Int) ≤ den := by
    rw [zpow_natCast]
    exact_mod_cast Nat.log2_self_le hden
  have hdenHigh : (den : ℚ) < 2 ^ (den.log2 + 1 : Int) := by
    have := @Nat.lt_log2_self den
    exact_mod_cast this
  have hcompare : num <<< (-(num.log2 - den.log2 : Int)).toNat < den <<< (num.log2 - den.log2 : Int).toNat ↔
      (num / den : ℚ) < 2 ^ (num.log2 - den.log2 : Int) := by
    have hshifted : (0 : ℚ) < (den <<< (num.log2 - den.log2 : Int).toNat : Nat) := by
      rw [Nat.shiftLeft_eq]
      positivity
    rw [← div_lt_one₀ (two_zpow_pos _), ← shifted_div, div_lt_one₀ hshifted, Nat.cast_lt]
  -- the difference of the two leading bits is right, or it is by one too high
  simp only [leadingBit, hcompare]
  split
  case isTrue h =>
    refine ⟨?_, by rwa [sub_add_cancel]⟩
    rw [le_div_iff₀ hden']
    calc (2 : ℚ) ^ (num.log2 - den.log2 - 1 : Int) * den
        ≤ 2 ^ (num.log2 - den.log2 - 1 : Int) * 2 ^ (den.log2 + 1 : Int) := by gcongr
      _ = 2 ^ (num.log2 : Int) := by
          rw [← zpow_add₀ two_ne_zero]
          congr 1
          omega
      _ ≤ num := hnumLow
  case isFalse h =>
    refine ⟨not_lt.1 h, ?_⟩
    rw [div_lt_iff₀ hden']
    calc (num : ℚ) < 2 ^ (num.log2 + 1 : Int) := hnumHigh
      _ = 2 ^ (num.log2 - den.log2 + 1 : Int) * 2 ^ (den.log2 : Int) := by
          rw [← zpow_add₀ two_ne_zero]
          congr 1
          omega
      _ ≤ 2 ^ (num.log2 - den.log2 + 1 : Int) * den := by gcongr

/-! ### The nearest whole number -/

theorem divNearestEven_cases (hd : 0 < d) :
    divNearestEven n d = n / d ∨ divNearestEven n d = n / d + 1 ∧ 0 < n % d := by
  unfold divNearestEven
  split
  · exact .inl rfl
  · split <;> omega

theorem divNearestEven_le {m : Nat} (hd : 0 < d) (h : n ≤ m * d) : divNearestEven n d ≤ m := by
  have hsplit : d * (n / d) + n % d = n := Nat.div_add_mod n d
  obtain hfloor | ⟨hceil, hrest⟩ := @divNearestEven_cases n d hd
  · rw [hfloor]
    exact Nat.div_le_of_le_mul (by rwa [Nat.mul_comm])
  · rw [hceil, Nat.succ_le_iff]
    apply Nat.lt_of_mul_lt_mul_left (a := d)
    rw [Nat.mul_comm d m]
    omega

theorem divNearestEven_near (hd : 0 < d) : |(divNearestEven n d : ℚ) - n / d| ≤ 1 := by
  have hd' : (0 : ℚ) < d := by exact_mod_cast hd
  have hsplit : (d : ℚ) * (n / d : Nat) + (n % d : Nat) = n := by exact_mod_cast Nat.div_add_mod n d
  have hmod : ((n % d : Nat) : ℚ) ≤ d := by exact_mod_cast (Nat.mod_lt n hd).le
  have hquotient : (n / d : ℚ) = (n / d : Nat) + (n % d : Nat) / d := by
    rw [← hsplit]
    field_simp
  have hlow : (0 : ℚ) ≤ (n % d : Nat) / d := by positivity
  have hhigh : ((n % d : Nat) / d : ℚ) ≤ 1 := div_le_one_of_le₀ hmod hd'.le
  rw [hquotient, abs_le]
  obtain hfloor | ⟨hceil, -⟩ := @divNearestEven_cases n d hd
  · rw [hfloor]
    constructor <;> linarith
  · rw [hceil, Nat.cast_add, Nat.cast_one]
    constructor <;> linarith

/-! ### The rounding -/

/-- The exponent of the unit in which `num / den` is rounded. -/
def unitExponent (num den : Nat) : Int := max (leadingBit num den - 52) leastExponent

/-- How many units `num / den` is rounded to. -/
def units (num den : Nat) : Nat :=
  divNearestEven (num <<< (-unitExponent num den).toNat) (den <<< (unitExponent num den).toNat)

theorem ofRatio_eq (hnum : num ≠ 0) :
    ofRatio negative num den =
      if units num den = mantissaBound then
        if greatestExponent < unitExponent num den + 1 then none
        else some ⟨negative, mantissaBound / 2, unitExponent num den + 1⟩
      else if greatestExponent < unitExponent num den then none
      else some ⟨negative, units num den, unitExponent num den⟩ := by
  by_cases h : units num den = mantissaBound
  · rw [if_pos h]
    unfold units unitExponent at h
    simp only [ofRatio, if_neg hnum, if_pos h, unitExponent]
    rfl
  · rw [if_neg h]
    unfold units unitExponent at h
    simp only [ofRatio, if_neg hnum, if_neg h, units, unitExponent]
    rfl

theorem shifted_pos (hden : 0 < den) (k : Nat) : 0 < den <<< k := by
  rw [Nat.shiftLeft_eq]
  positivity

theorem units_near (hden : 0 < den) :
    |(units num den : ℚ) * 2 ^ unitExponent num den - num / den| ≤ 2 ^ unitExponent num den := by
  have hunit := two_zpow_pos (unitExponent num den)
  have hnear := @divNearestEven_near (num <<< (-unitExponent num den).toNat) _
    (shifted_pos hden (unitExponent num den).toNat)
  rw [shifted_div] at hnear
  calc |(units num den : ℚ) * 2 ^ unitExponent num den - num / den|
      = |(units num den : ℚ) - num / den / 2 ^ unitExponent num den| * 2 ^ unitExponent num den := by
        rw [← abs_of_pos hunit, ← abs_mul, abs_of_pos hunit, sub_mul, div_mul_cancel₀ _ hunit.ne']
    _ ≤ 1 * 2 ^ unitExponent num den := by
        gcongr
        exact hnear
    _ = 2 ^ unitExponent num den := one_mul _

theorem units_le {m : Nat} (hden : 0 < den) (h : (num / den : ℚ) ≤ m * 2 ^ unitExponent num den) :
    units num den ≤ m := by
  have hshifted := shifted_pos hden (unitExponent num den).toNat
  apply divNearestEven_le hshifted
  rw [← div_le_iff₀ (two_zpow_pos _), ← shifted_div, div_le_iff₀ (by exact_mod_cast hshifted)] at h
  exact_mod_cast h

/-- The unit is small against the quotient or against one. -/
theorem unit_le (hnum : num ≠ 0) (hden : 0 < den) :
    (2 : ℚ) ^ unitExponent num den ≤ max (num / den : ℚ) 1 / 2 ^ 52 := by
  rw [le_div_iff₀ (by positivity), ← zpow_natCast, ← zpow_add₀ two_ne_zero, le_max_iff]
  obtain h | h : unitExponent num den = leadingBit num den - 52 ∨ unitExponent num den = leastExponent := by
    unfold unitExponent
    omega
  · left
    rw [h, Nat.cast_ofNat, sub_add_cancel]
    exact (leadingBit_spec hnum hden.ne').1
  · right
    rw [h]
    exact zpow_le_one_of_nonpos₀ one_le_two (by decide)

/-- A quotient that is no greater than the greatest number is rounded to a number close by. -/
theorem ofRatio_near (negative : Bool) (hden : 0 < den) (h : (num / den : ℚ) ≤ greatest.magnitude) :
    ∃ x, ofRatio negative num den = some x ∧ |x.magnitude - num / den| ≤ max (num / den : ℚ) 1 / 2 ^ 52 := by
  by_cases hnum : num = 0
  · refine ⟨zero negative, by rw [ofRatio, if_pos hnum], ?_⟩
    simp [hnum, magnitude, zero]
  have hnear : |(units num den : ℚ) * 2 ^ unitExponent num den - num / den| ≤ max (num / den : ℚ) 1 / 2 ^ 52 :=
    (units_near hden).trans (unit_le hnum hden)
  have hexponent : unitExponent num den ≤ greatestExponent := by
    have hlead : (2 : ℚ) ^ leadingBit num den < 2 ^ (1024 : Int) :=
      calc (2 : ℚ) ^ leadingBit num den ≤ num / den := (leadingBit_spec hnum hden.ne').1
        _ ≤ greatest.magnitude := h
        _ < 2 ^ (1024 : Int) := magnitude_greatest_lt
    rw [zpow_lt_zpow_iff_right₀ one_lt_two] at hlead
    simp only [unitExponent, leastExponent, greatestExponent]
    omega
  rw [ofRatio_eq hnum]
  by_cases hunits : units num den = mantissaBound
  · -- rounding up to the next power of two raises the exponent, but not beyond the greatest number
    have hlower : unitExponent num den ≠ greatestExponent := by
      intro heq
      have hle : units num den ≤ mantissaBound - 1 := units_le hden (by rw [heq]; exact h)
      rw [hunits, mantissaBound_eq] at hle
      omega
    rw [if_pos hunits, if_neg (by omega)]
    refine ⟨_, rfl, ?_⟩
    have hcarry : ((mantissaBound / 2 : Nat) : ℚ) * 2 ^ (unitExponent num den + 1) =
        mantissaBound * 2 ^ unitExponent num den := by
      rw [zpow_add_one₀ two_ne_zero]
      norm_num [mantissaBound_eq]
      ring
    rwa [magnitude, hcarry, ← hunits]
  · rw [if_neg hunits, if_neg (by omega)]
    exact ⟨_, rfl, hnear⟩

/-! ### Arithmetic -/

theorem ofNat_near (h : (n : ℚ) ≤ greatest.magnitude) :
    ∃ x, ofNat n = some x ∧ |x.magnitude - n| ≤ max (n : ℚ) 1 / 2 ^ 52 := by
  have hnear := @ofRatio_near n 1 false one_pos
  rw [Nat.cast_one, div_one] at hnear
  exact hnear h

theorem mul_near (h : x.magnitude * y.magnitude ≤ greatest.magnitude) :
    ∃ z, x.mul y = some z ∧
      |z.magnitude - x.magnitude * y.magnitude| ≤ max (x.magnitude * y.magnitude) 1 / 2 ^ 52 := by
  have hratio : ((x.numerator * y.numerator : Nat) / (x.denominator * y.denominator : Nat) : ℚ) =
      x.magnitude * y.magnitude := by
    rw [magnitude_eq, magnitude_eq, Nat.cast_mul, Nat.cast_mul, mul_div_mul_comm]
  have hnear := ofRatio_near (x.negative != y.negative) (Nat.mul_pos x.denominator_pos y.denominator_pos)
    (hratio ▸ h)
  rwa [hratio] at hnear

theorem div_near (hy : 0 < y.magnitude) (h : x.magnitude / y.magnitude ≤ greatest.magnitude) :
    ∃ z, x.div y = some z ∧
      |z.magnitude - x.magnitude / y.magnitude| ≤ max (x.magnitude / y.magnitude) 1 / 2 ^ 52 := by
  have hnumerator : 0 < y.numerator := by
    rw [Nat.pos_iff_ne_zero]
    intro hzero
    rw [magnitude_eq, hzero, Nat.cast_zero, zero_div] at hy
    exact lt_irrefl _ hy
  have hratio : ((x.numerator * y.denominator : Nat) / (x.denominator * y.numerator : Nat) : ℚ) =
      x.magnitude / y.magnitude := by
    rw [magnitude_eq, magnitude_eq, Nat.cast_mul, Nat.cast_mul, div_div_div_eq]
  have hnear := ofRatio_near (x.negative != y.negative) (Nat.mul_pos x.denominator_pos hnumerator)
    (hratio ▸ h)
  rwa [hratio] at hnear

end SaveAs.Binary64
