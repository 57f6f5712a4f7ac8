import Mathlib.Algebra.Order.Floor.Div
import Mathlib.Data.Set.Card
import Mathlib.Order.Interval.Finset.Nat
import SaveAs.Proofs.FileName

/-!
# How many words give a name

Two words are one number of 64 bits, and what is drawn from them is the part of that range in which it
lies, of as many equal parts as the bound has numbers. The parts are intervals of whole numbers, so no two
of them differ in length by more than one, and each of them is the words of one file name.
-/

namespace SaveAs

/-! ### Equal parts of a range -/

section Parts

variable {size m : Nat}

/-- The numbers in one of `m` equal parts are an interval. -/
theorem mul_div_eq_iff (hsize : 0 < size) (hm : 0 < m) (x k : Nat) :
    x * m / size = k ↔ k * size ⌈/⌉ m ≤ x ∧ x < (k + 1) * size ⌈/⌉ m := by
  have hlow : k * size ⌈/⌉ m ≤ x ↔ k * size ≤ x * m := by
    rw [ceilDiv_le_iff_le_mul hm, Nat.mul_comm m]
  have hhigh : (k + 1) * size ⌈/⌉ m ≤ x ↔ (k + 1) * size ≤ x * m := by
    rw [ceilDiv_le_iff_le_mul hm, Nat.mul_comm m]
  rw [hlow, ← Nat.not_le, hhigh, Nat.not_le]
  constructor
  · rintro rfl
    exact ⟨Nat.div_mul_le_self _ _, Nat.lt_mul_of_div_lt (Nat.lt_succ_self _) hsize⟩
  · rintro ⟨hlow, hhigh⟩
    exact Nat.div_eq_of_lt_le hlow hhigh

theorem div_le_ceilDiv (n m : Nat) : n / m ≤ n ⌈/⌉ m := by
  rw [← Nat.floorDiv_eq_div]
  exact floorDiv_le_ceilDiv

theorem ceilDiv_le_div_add_one (hm : 0 < m) (n : Nat) : n ⌈/⌉ m ≤ n / m + 1 := by
  rw [ceilDiv_le_iff_le_mul hm]
  exact Nat.le_of_lt (Nat.lt_mul_div_succ n hm)

/-- A part has the quotient in numbers, rounded down or up. -/
theorem length_part (hm : 0 < m) (a : Nat) :
    (a + size) ⌈/⌉ m - a ⌈/⌉ m = size / m ∨ (a + size) ⌈/⌉ m - a ⌈/⌉ m = size ⌈/⌉ m := by
  have hstart : a ≤ m * (a ⌈/⌉ m) := (ceilDiv_le_iff_le_mul hm).1 le_rfl
  have hend : a + size ≤ m * ((a + size) ⌈/⌉ m) := (ceilDiv_le_iff_le_mul hm).1 le_rfl
  have hround : size ≤ m * (size ⌈/⌉ m) := (ceilDiv_le_iff_le_mul hm).1 le_rfl
  have hwhole : m * (size / m) ≤ size := Nat.mul_div_le size m
  have hupper : (a + size) ⌈/⌉ m ≤ a ⌈/⌉ m + size ⌈/⌉ m := by
    rw [ceilDiv_le_iff_le_mul hm, Nat.mul_add]
    omega
  have hlower : a ⌈/⌉ m ≤ (a + size) ⌈/⌉ m - size / m := by
    rw [ceilDiv_le_iff_le_mul hm, Nat.mul_sub]
    omega
  have hquotient : size / m ≤ (a + size) ⌈/⌉ m := by
    apply Nat.le_of_mul_le_mul_left _ hm
    omega
  have hnear := ceilDiv_le_div_add_one hm size
  omega

end Parts

/-! ### The words of a number -/

namespace Generator

/-- The generator with these as its next two words. -/
def supply (g : Generator) (w₁ w₂ : UInt32) : Generator :=
  { g with word := fun i => if i = g.drawn then w₁ else if i = g.drawn + 1 then w₂ else g.word i }

theorem below_supply (g : Generator) (w₁ w₂ : UInt32) (m : Nat) :
    ((g.supply w₁ w₂).below m).1 = pick w₁ w₂ m := by
  simp [below, supply]

/-- Two words as one number of 64 bits. -/
def joined (w : UInt32 × UInt32) : Nat := w.1.toNat * UInt32.size + w.2.toNat

theorem joined_injective : Function.Injective joined := by
  intro w v h
  have hw := w.2.toNat_lt_size
  have hv := v.2.toNat_lt_size
  simp only [joined, UInt32.size] at h hw hv
  apply Prod.ext
  · apply UInt32.toNat_inj.1
    omega
  · apply UInt32.toNat_inj.1
    omega

theorem exists_joined {x : Nat} (hx : x < UInt64.size) : ∃ w, joined w = x := by
  have hfirst : x / UInt32.size < UInt32.size := Nat.div_lt_of_lt_mul hx
  have hsecond : x % UInt32.size < UInt32.size := Nat.mod_lt _ (by decide)
  refine ⟨(UInt32.ofNat (x / UInt32.size), UInt32.ofNat (x % UInt32.size)), ?_⟩
  rw [joined, UInt32.toNat_ofNat_of_lt' hfirst, UInt32.toNat_ofNat_of_lt' hsecond]
  exact Nat.div_add_mod' x UInt32.size

/-- The pairs of words from which a number is drawn below a bound, the second counted where it is not
drawn as well. -/
def drawing (m k : Nat) : Set (UInt32 × UInt32) :=
  {w | pick w.1 w.2 m = k}

variable {m k : Nat}

theorem mem_drawing {w : UInt32 × UInt32} : w ∈ drawing m k ↔ pick w.1 w.2 m = k :=
  Iff.rfl

theorem image_drawing (hm : 0 < m) (hle : m ≤ UInt32.size) (hk : k < m) :
    joined '' drawing m k = Finset.Ico (k * UInt64.size ⌈/⌉ m) ((k + 1) * UInt64.size ⌈/⌉ m) := by
  have hpick (w : UInt32 × UInt32) : pick w.1 w.2 m = joined w * m / UInt64.size :=
    pick_eq_scaled w.1 w.2 hm hle
  have hlast : (k + 1) * UInt64.size ⌈/⌉ m ≤ UInt64.size := by
    rw [ceilDiv_le_iff_le_mul hm]
    exact Nat.mul_le_mul_right _ hk
  ext x
  simp only [Set.mem_image, mem_drawing, Finset.mem_coe, Finset.mem_Ico, hpick]
  rw [← mul_div_eq_iff (by decide) hm]
  constructor
  · rintro ⟨w, hw, rfl⟩
    exact hw
  · intro hx
    have hlt : x < UInt64.size := by
      have := (mul_div_eq_iff (by decide) hm x k).1 hx
      omega
    obtain ⟨w, rfl⟩ := exists_joined hlt
    exact ⟨w, hx, rfl⟩

theorem ncard_drawing (hm : 0 < m) (hle : m ≤ UInt32.size) (hk : k < m) :
    (drawing m k).ncard = UInt64.size / m ∨ (drawing m k).ncard = UInt64.size ⌈/⌉ m := by
  rw [← Set.ncard_image_of_injective _ joined_injective, image_drawing hm hle hk, Set.ncard_coe_finset,
    Nat.card_Ico, Nat.succ_mul]
  exact length_part hm (k * UInt64.size)

end Generator

/-! ### The words of a name -/

namespace Options

/-- Whatever is drawn after them and before, the pairs of next words that give a number its name are as
many as the bound leaves to each, rounded down or up. Every number below the bound is in the name that
some pair gives, and no other number is. -/
theorem fileName_equidistributed (o : Options) (g : Generator) :
    let m := o.bound
    let giving (name : String) : Set (UInt32 × UInt32) :=
      {w | (o.fileName (g.supply w.1 w.2)).1 = name}
    (∀ k < m, (giving (o.nameOf k)).ncard = UInt64.size / m ∨
      (giving (o.nameOf k)).ncard = UInt64.size ⌈/⌉ m) ∧
    (∀ k, (giving (o.nameOf k)).Nonempty ↔ k < m) ∧
    (∀ w₁ w₂, ∃ k < m, (o.fileName (g.supply w₁ w₂)).1 = o.nameOf k) ∧
    (∀ k < m, ∀ k' < m, (giving (o.nameOf k)).ncard ≤ (giving (o.nameOf k')).ncard + 1) := by
  intro m giving
  have hname (w₁ w₂ : UInt32) : (o.fileName (g.supply w₁ w₂)).1 = o.nameOf (Generator.pick w₁ w₂ m) :=
    congrArg o.nameOf (g.below_supply w₁ w₂ m)
  have hgiving (k : Nat) : giving (o.nameOf k) = Generator.drawing m k := by
    ext w
    rw [Generator.mem_drawing, Set.mem_ofPred_eq, hname]
    exact o.nameOf_injective.eq_iff
  have hcard (k : Nat) (hk : k < m) : (giving (o.nameOf k)).ncard = UInt64.size / m ∨
      (giving (o.nameOf k)).ncard = UInt64.size ⌈/⌉ m := by
    rw [hgiving]
    exact Generator.ncard_drawing o.bound_pos o.bound_le hk
  have hpicked (w₁ w₂ : UInt32) : Generator.pick w₁ w₂ m < m := Generator.pick_lt w₁ w₂ o.bound_pos
  refine ⟨hcard, ?_, ?_, ?_⟩
  · intro k
    constructor
    · rintro ⟨w, hw⟩
      rw [hgiving, Generator.mem_drawing] at hw
      exact hw ▸ hpicked w.1 w.2
    · intro hk
      have hquotient : 0 < UInt64.size / m :=
        Nat.div_pos (o.bound_le.trans (by decide)) o.bound_pos
      have hceil := div_le_ceilDiv UInt64.size m
      apply Set.nonempty_of_ncard_ne_zero
      have := hcard k hk
      omega
  · intro w₁ w₂
    exact ⟨_, hpicked w₁ w₂, hname w₁ w₂⟩
  · intro k hk k' hk'
    have hnear : UInt64.size ⌈/⌉ m ≤ UInt64.size / m + 1 :=
      ceilDiv_le_div_add_one o.bound_pos UInt64.size
    have hceil := div_le_ceilDiv UInt64.size m
    have := hcard k hk
    have := hcard k' hk'
    omega

/-- A bound of two halves the pairs, and the default bound leaves some for its greatest number. -/
theorem pairs_of_halved_words :
    Set.ncard {w : UInt32 × UInt32 | (({ maxSuffix := 2 } : Options).fileName
      ((Generator.cycle []).supply w.1 w.2)).1 = "out1.png"} = 9223372036854775808 ∧
    ∃ w : UInt32 × UInt32,
      (({} : Options).fileName ((Generator.cycle []).supply w.1 w.2)).1 = "out99998.png" := by
  obtain ⟨hcard, -, -, -⟩ := fileName_equidistributed { maxSuffix := 2 } (Generator.cycle [])
  obtain ⟨-, hreached, -, -⟩ := fileName_equidistributed {} (Generator.cycle [])
  have hhalved : ({ maxSuffix := 2 } : Options).nameOf 1 = "out1.png" := by decide +kernel
  have hgreatest : ({} : Options).nameOf 99998 = "out99998.png" := by decide +kernel
  constructor
  · rw [← hhalved]
    obtain h | h := hcard 1 (by decide)
    · exact h.trans (by decide +kernel)
    · exact h.trans (by decide +kernel)
  · obtain ⟨w, hw⟩ := (hreached 99998).2 (by decide)
    rw [← hgreatest]
    exact ⟨w, hw⟩

end Options

end SaveAs
