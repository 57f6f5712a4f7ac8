import Mathlib.Data.List.Induction
import Mathlib.Tactic.Ring
import SaveAs.Decimal

/-!
# Decimal digits

The number of a run of digits is read from its last digit on, as `digits` writes it. So `digits` writes
what was read, unless there was a zero in front.
-/

namespace SaveAs.Decimal

variable {c : Char} {cs ds : List Char}

theorem digits_ne_nil (n : Nat) : digits n ≠ [] := by
  rw [digits]
  split <;> simp

theorem isDigit_of_mem_digits {n : Nat} (h : c ∈ digits n) : isDigit c = true := by
  induction n using digits.induct with
  | case1 n hn =>
    rw [digits, if_pos hn] at h
    rw [List.mem_singleton.1 h]
    exact isDigit_digit hn
  | case2 n hn ih =>
    rw [digits, if_neg hn] at h
    obtain h | h := List.mem_append.1 h
    · exact ih h
    · rw [List.mem_singleton.1 h]
      exact isDigit_digit (by omega)

theorem isDigit_iff : isDigit c = true ↔ 48 ≤ c.toNat ∧ c.toNat ≤ 57 := by
  simp only [isDigit, Bool.and_eq_true, decide_eq_true_eq, Char.le_def, UInt32.le_iff_toNat_le]
  rfl

theorem digitValue_le (h : isDigit c = true) : digitValue c ≤ 9 := by
  have := isDigit_iff.1 h
  unfold digitValue
  omega

theorem digit_digitValue (h : isDigit c = true) : digit (digitValue c) = c := by
  have := isDigit_iff.1 h
  rw [digit, digitValue, show 48 + (c.toNat - 48) = c.toNat by omega, Char.ofNat_toNat]

theorem digitValue_pos (h : isDigit c = true) (hzero : c ≠ '0') : 0 < digitValue c := by
  rw [Nat.pos_iff_ne_zero]
  intro hvalue
  apply hzero
  rw [← digit_digitValue h, hvalue]
  rfl

theorem value_append (cs ds : List Char) : value (cs ++ ds) = value cs * 10 ^ ds.length + value ds := by
  induction ds using List.reverseRecOn with
  | nil => simp [value]
  | append_singleton ds d ih =>
    rw [← List.append_assoc, value_append_singleton, ih, value_append_singleton, List.length_append,
      List.length_singleton, pow_succ]
    ring

theorem value_cons (c : Char) (cs : List Char) :
    value (c :: cs) = digitValue c * 10 ^ cs.length + value cs := by
  rw [← List.singleton_append, value_append]
  simp [value]

theorem value_lt (h : ∀ c ∈ cs, isDigit c = true) : value cs < 10 ^ cs.length := by
  induction cs with
  | nil => simp [value]
  | cons c cs ih =>
    have hvalue := ih fun d hd => h d (List.mem_cons_of_mem _ hd)
    have hdigit := digitValue_le (h c List.mem_cons_self)
    calc value (c :: cs) = digitValue c * 10 ^ cs.length + value cs := value_cons c cs
      _ < 9 * 10 ^ cs.length + 10 ^ cs.length := by
          have := Nat.mul_le_mul_right (10 ^ cs.length) hdigit
          omega
      _ = 10 ^ (c :: cs).length := by
          rw [List.length_cons, pow_succ]
          ring

/-- `digits` writes the digits that were read, where no zero stands in front of another digit. -/
theorem digits_value (hdigits : ∀ c ∈ cs, isDigit c = true) (hne : cs ≠ [])
    (hzero : cs.head? = some '0' → cs = ['0']) : digits (value cs) = cs := by
  induction cs using List.reverseRecOn with
  | nil => exact absurd rfl hne
  | append_singleton cs c ih =>
    have hlast : isDigit c = true := hdigits c (by simp)
    have hsmall := digitValue_le hlast
    rw [value_append_singleton]
    cases cs with
    | nil =>
      have hvalue : 10 * value [] + digitValue c = digitValue c := by simp [value]
      rw [hvalue, digits, if_pos (by omega), digit_digitValue hlast]
      rfl
    | cons d ds =>
      have hfirst : isDigit d = true := hdigits d (by simp)
      have hnonzero : d ≠ '0' := by
        rintro rfl
        have := hzero rfl
        simp at this
      have hpos : 0 < value (d :: ds) := by
        rw [value_cons]
        apply Nat.add_pos_left
        exact Nat.mul_pos (digitValue_pos hfirst hnonzero) (Nat.pow_pos (by decide))
      have hrest : digits (value (d :: ds)) = d :: ds := by
        apply ih
        · intro b hb
          exact hdigits b (List.mem_append_left _ hb)
        · exact List.cons_ne_nil d ds
        · intro h
          exact absurd (Option.some.inj h) hnonzero
      rw [digits, if_neg (by omega), show (10 * value (d :: ds) + digitValue c) / 10 = value (d :: ds) by omega,
        show (10 * value (d :: ds) + digitValue c) % 10 = digitValue c by omega, hrest,
        digit_digitValue hlast]

/-! ### Texts of digits -/

theorem digit_ne_zero {d : Nat} (h : d < 10) (hd : d ≠ 0) : digit d ≠ '0' := by
  intro hzero
  have hvalue := digitValue_digit h
  rw [hzero] at hvalue
  exact hd hvalue.symm

/-- The first digit of a number is a zero for zero alone. -/
theorem head?_digits_ne_zero {n : Nat} (hn : n ≠ 0) : (digits n).head? ≠ some '0' := by
  induction n using digits.induct with
  | case1 n hsmall =>
    rw [digits, if_pos hsmall]
    exact fun h => digit_ne_zero hsmall hn (Option.some.inj h)
  | case2 n hlarge ih =>
    rw [digits, if_neg hlarge, List.head?_append, Ne, Option.or_eq_some_iff, List.head?_eq_none_iff]
    rintro (hfirst | ⟨hnil, -⟩)
    · exact ih (by omega) hfirst
    · exact digits_ne_nil _ hnil

theorem canonical_iff : canonical cs = true ↔
    cs ≠ [] ∧ cs.all isDigit = true ∧ (cs = ['0'] ∨ cs.head? ≠ some '0') := by
  unfold canonical
  split
  · simp
  · simp [isDigit]
  · rename_i c rest hzero
    have hne : c :: rest ≠ ['0'] := fun h => by
      obtain ⟨hc, hrest⟩ := List.cons_eq_cons.1 h
      exact hzero hc hrest
    simp [hne, and_assoc, and_comm]

theorem canonical_digits (n : Nat) : canonical (digits n) = true := by
  rw [canonical_iff]
  refine ⟨digits_ne_nil n, List.all_eq_true.2 fun c hc => isDigit_of_mem_digits hc, ?_⟩
  by_cases hn : n = 0
  · left
    rw [hn, digits]
    rfl
  · exact .inr (head?_digits_ne_zero hn)

/-- Canonical texts are those that `digits` writes. -/
theorem digits_of_canonical (h : canonical cs = true) : digits (value cs) = cs := by
  obtain ⟨hne, hdigits, hzero⟩ := canonical_iff.1 h
  exact digits_value (List.all_eq_true.1 hdigits) hne fun hhead =>
    hzero.resolve_right fun hother => hother hhead

end SaveAs.Decimal
