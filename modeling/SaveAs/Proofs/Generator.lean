import Mathlib.Tactic.Ring
import SaveAs.Generator

/-!
# The numbers that a generator draws

A number drawn for a bound is below it, with one word or with two. It is the 64-bit fraction that both
words make, scaled to the bound and rounded down, also where the second word is not drawn: that word is
left where it is exactly when no second word would change the number.
-/

namespace SaveAs.Generator

theorem upper_mul_add_lower (w : UInt32) (m : Nat) :
    upper w m * UInt32.size + lower w m = w.toNat * m := by
  rw [Nat.mul_comm]
  exact Nat.div_add_mod _ _

theorem upper_lt (w : UInt32) {m : Nat} (hm : 0 < m) : upper w m < m := by
  rw [upper, Nat.div_lt_iff_lt_mul (by decide), Nat.mul_comm m]
  exact Nat.mul_lt_mul_of_pos_right w.toNat_lt_size hm

/-- A carry into the upper half does not reach the bound, since a word is below `2 ^ 32`. -/
theorem pick_lt (w₁ w₂ : UInt32) {m : Nat} (hm : 0 < m) : pick w₁ w₂ m < m := by
  have hupper := upper_lt w₁ hm
  have hsecond := upper_lt w₂ hm
  have hsplit := upper_mul_add_lower w₁ m
  have hword : w₁.toNat * m + m ≤ UInt32.size * m := by
    have := Nat.mul_le_mul_right m (Nat.succ_le_of_lt w₁.toNat_lt_size)
    rwa [Nat.succ_mul] at this
  simp only [UInt32.size] at hsplit hword
  rw [pick]
  split
  · rename_i hcarry
    have hcarried := hcarry.2
    simp only [UInt32.size] at hcarried
    omega
  · exact hupper

/-! ### The scaled fraction -/

variable {w w₁ w₂ : UInt32} {m : Nat}

theorem lower_lt (w : UInt32) (m : Nat) : lower w m < UInt32.size :=
  Nat.mod_lt _ (by decide)

/-- Of the second word only the upper half of its product counts, for what it carries. -/
theorem scaled_eq (w₁ w₂ : UInt32) (m : Nat) :
    scaled w₁ w₂ m = upper w₁ m + (lower w₁ m + upper w₂ m) / UInt32.size := by
  have hsize : UInt64.size = UInt32.size * UInt32.size := rfl
  have hpos : 0 < UInt32.size := by decide
  calc scaled w₁ w₂ m
      = (w₂.toNat * m + UInt32.size * (w₁.toNat * m)) / UInt32.size / UInt32.size := by
        rw [scaled, hsize, ← Nat.div_div_eq_div_mul]
        congr 2
        ring
    _ = (upper w₂ m + w₁.toNat * m) / UInt32.size := by
        rw [Nat.add_mul_div_left _ _ hpos, upper]
    _ = (lower w₁ m + upper w₂ m + UInt32.size * upper w₁ m) / UInt32.size := by
        rw [← upper_mul_add_lower w₁ m]
        congr 1
        ring
    _ = upper w₁ m + (lower w₁ m + upper w₂ m) / UInt32.size := by
        rw [Nat.add_mul_div_left _ _ hpos, Nat.add_comm]

/-- A first word that is not open leaves no room for a carry. -/
theorem scaled_of_closed (hm : 0 < m) (hle : m ≤ UInt32.size) (hclosed : isOpen w₁ m = false)
    (w₂ : UInt32) : scaled w₁ w₂ m = upper w₁ m := by
  have hsecond := upper_lt w₂ hm
  have hlower : lower w₁ m ≤ UInt32.size - m := Nat.not_lt.1 (of_decide_eq_false hclosed)
  rw [scaled_eq, Nat.div_eq_of_lt (by omega), Nat.add_zero]

theorem pick_eq_scaled (w₁ w₂ : UInt32) (hm : 0 < m) (hle : m ≤ UInt32.size) :
    pick w₁ w₂ m = scaled w₁ w₂ m := by
  have hlower := lower_lt w₁ m
  have hsecond := upper_lt w₂ hm
  rw [pick]
  cases hopen : isOpen w₁ m with
  | false => simp [scaled_of_closed hm hle hopen w₂]
  | true =>
    rw [scaled_eq]
    by_cases hcarry : UInt32.size ≤ lower w₁ m + upper w₂ m
    · have hone : (lower w₁ m + upper w₂ m) / UInt32.size = 1 :=
        Nat.div_eq_of_lt_le (by omega) (by omega)
      rw [if_pos ⟨rfl, hcarry⟩, hone]
    · rw [if_neg fun h => hcarry h.2, Nat.div_eq_of_lt (Nat.not_le.1 hcarry), Nat.add_zero]

/-- The greatest second word carries into the upper half of an open first word, and zero does not. -/
theorem scaled_ends_of_open (hm : 0 < m) (hle : m ≤ UInt32.size) (hopen : isOpen w m = true) :
    scaled w 0 m = upper w m ∧ scaled w 0xffffffff m = upper w m + 1 := by
  have hlower := lower_lt w m
  have hroom : UInt32.size - m < lower w m := of_decide_eq_true hopen
  have hzero : upper 0 m = 0 := by simp [upper]
  have hgreatest : upper 0xffffffff m = m - 1 := by
    rw [upper, Nat.div_eq_iff (by decide)]
    simp only [UInt32.size, UInt32.reduceToNat] at hle ⊢
    omega
  rw [scaled_eq, scaled_eq, hzero, hgreatest]
  constructor
  · rw [Nat.add_zero, Nat.div_eq_of_lt hlower, Nat.add_zero]
  · have hone : (lower w m + (m - 1)) / UInt32.size = 1 :=
      Nat.div_eq_of_lt_le (by omega) (by omega)
    rw [hone]

/-- The first word decides alone, unless the number depends on the second. -/
theorem isOpen_iff (w : UInt32) (hm : 0 < m) (hle : m ≤ UInt32.size) :
    isOpen w m = true ↔ ∃ v v', scaled w v m ≠ scaled w v' m := by
  constructor
  · intro hopen
    obtain ⟨hzero, hgreatest⟩ := scaled_ends_of_open hm hle hopen
    exact ⟨0, 0xffffffff, by omega⟩
  · rintro ⟨v, v', hne⟩
    by_contra hclosed
    rw [Bool.not_eq_true] at hclosed
    rw [scaled_of_closed hm hle hclosed, scaled_of_closed hm hle hclosed] at hne
    exact hne rfl

theorem wordsNeeded_eq_two_iff (w : UInt32) (hm : 0 < m) (hle : m ≤ UInt32.size) :
    wordsNeeded w m = 2 ↔ ∃ v v', scaled w v m ≠ scaled w v' m := by
  rw [← isOpen_iff w hm hle, wordsNeeded]
  cases isOpen w m <;> simp

theorem wordsNeeded_eq_one_iff (w : UInt32) (hm : 0 < m) (hle : m ≤ UInt32.size) :
    wordsNeeded w m = 1 ↔ ∀ v v', scaled w v m = scaled w v' m := by
  have hopen := isOpen_iff w hm hle
  rw [wordsNeeded]
  cases h : isOpen w m with
  | false =>
    rw [h] at hopen
    simpa using hopen
  | true =>
    obtain ⟨v, v', hne⟩ := hopen.1 h
    simpa using ⟨v, v', hne⟩

theorem isOpen_one (w : UInt32) : isOpen w 1 = false := by
  have := lower_lt w 1
  exact decide_eq_false (by omega)

end SaveAs.Generator
