import SaveAs.FileName
import SaveAs.Proofs.Decimal
import SaveAs.Proofs.Generator

/-!
# What file names look like

A file name always has a digit, whatever the options are. So it is never one of the texts that stand
for no file of their own: the empty one, `.` and `..`. The number in a name that was drawn is below the
bound of its options.
-/

namespace SaveAs

namespace Options

theorem exists_digit_mem_nameOf (o : Options) (n : Nat) :
    ∃ c ∈ (o.nameOf n).toList, Decimal.isDigit c = true := by
  obtain ⟨c, hc⟩ := List.exists_mem_of_ne_nil _ (Decimal.digits_ne_nil n)
  exact ⟨c, by simp [nameOf, Decimal.text, hc], Decimal.isDigit_of_mem_digits hc⟩

theorem nameOf_ne {s : String} (h : s.toList.any Decimal.isDigit = false) (o : Options) (n : Nat) :
    o.nameOf n ≠ s := by
  rintro rfl
  obtain ⟨c, hc, hdigit⟩ := o.exists_digit_mem_nameOf n
  exact List.any_eq_false.1 h c hc hdigit

theorem nameOf_ne_empty (o : Options) (n : Nat) : o.nameOf n ≠ "" :=
  nameOf_ne rfl o n

theorem nameOf_ne_dot (o : Options) (n : Nat) : o.nameOf n ≠ "." :=
  nameOf_ne rfl o n

theorem nameOf_ne_dotdot (o : Options) (n : Nat) : o.nameOf n ≠ ".." :=
  nameOf_ne rfl o n

theorem slash_not_mem_nameOf {o : Options} (hstem : '/' ∉ o.stem.toList)
    (hextension : '/' ∉ o.extension.toList) (n : Nat) : '/' ∉ (o.nameOf n).toList := by
  have hdigits : '/' ∉ Decimal.digits n := fun h =>
    absurd (Decimal.isDigit_of_mem_digits h) (by decide)
  simp [nameOf, Decimal.text, hstem, hdigits, hextension]

theorem nameOf_injective (o : Options) : Function.Injective o.nameOf := by
  intro n k h
  have hlist := congrArg String.toList h
  simp only [nameOf, Decimal.text, String.toList_append, String.toList_ofList, List.append_assoc,
    List.append_cancel_left_eq, List.append_cancel_right_eq] at hlist
  rw [← Decimal.value_digits n, ← Decimal.value_digits k, hlist]

/-- A name that may be drawn for the options. -/
def Names (o : Options) (name : String) : Prop :=
  ∃ n < o.bound, name = o.nameOf n

theorem names_fileName (o : Options) (g : Generator) : o.Names (o.fileName g).1 :=
  ⟨_, Generator.pick_lt _ _ o.bound_pos, rfl⟩

/-- A file name that is shown, if there is one, may be drawn for the options. -/
def NamesShown {ν : Type} (filename? : ν → Option String) (o : Options) (e : ν) : Prop :=
  ∀ name, filename? e = some name → o.Names name

section NamesShown

variable {ν : Type} {filename? : ν → Option String} {o : Options} {e : ν} {name : String}

theorem namesShown_of_none (h : filename? e = none) : o.NamesShown filename? e := by
  intro name hname
  rw [h] at hname
  cases hname

theorem namesShown_of_some (h : filename? e = some name) (hname : o.Names name) :
    o.NamesShown filename? e := by
  intro other hother
  rw [h] at hother
  rwa [← Option.some.inj hother]

end NamesShown

theorem bound_le (o : Options) : o.bound ≤ UInt32.size :=
  Nat.le_of_lt o.bound_lt

/-- The number in a file name is the next two words as a 64-bit fraction, scaled to the bound and rounded
down, however many of them were drawn. A carry leaves it below the bound. The second word is drawn only
for a number that depends on it. -/
theorem fileName_scales_words (o : Options) (g : Generator) :
    let m := o.bound
    let w₁ := g.word g.drawn
    let w₂ := g.word (g.drawn + 1)
    (o.fileName g).1 = o.nameOf (Generator.scaled w₁ w₂ m) ∧
    Generator.scaled w₁ w₂ m < m ∧
    (Generator.isOpen w₁ m = true → UInt32.size ≤ Generator.lower w₁ m + Generator.upper w₂ m →
      Generator.upper w₁ m + 1 < m ∧ m < UInt32.size) ∧
    ((o.fileName g).2 = { g with drawn := g.drawn + 2 } ↔
      ∃ v v', Generator.scaled w₁ v m ≠ Generator.scaled w₁ v' m) ∧
    ((o.fileName g).2 = { g with drawn := g.drawn + 1 } ↔
      ∀ v v', Generator.scaled w₁ v m = Generator.scaled w₁ v' m) ∧
    (m = 1 → (o.fileName g).2 = { g with drawn := g.drawn + 1 }) := by
  intro m w₁ w₂
  have hscaled : Generator.pick w₁ w₂ m = Generator.scaled w₁ w₂ m :=
    Generator.pick_eq_scaled w₁ w₂ o.bound_pos o.bound_le
  have hnumber : Generator.pick w₁ w₂ m < m := Generator.pick_lt w₁ w₂ o.bound_pos
  have hdrawn (k : Nat) : (o.fileName g).2 = { g with drawn := g.drawn + k } ↔
      Generator.wordsNeeded w₁ m = k := by
    constructor
    · intro h
      exact Nat.add_left_cancel (congrArg Generator.drawn h)
    · rintro rfl
      rfl
  refine ⟨?_, hscaled ▸ hnumber, fun hopen hcarry => ⟨?_, o.bound_lt⟩, ?_, ?_, fun hone => ?_⟩
  · rw [← hscaled]
    rfl
  · rwa [Generator.pick, if_pos ⟨hopen, hcarry⟩] at hnumber
  · rw [hdrawn]
    exact Generator.wordsNeeded_eq_two_iff w₁ o.bound_pos o.bound_le
  · rw [hdrawn]
    exact Generator.wordsNeeded_eq_one_iff w₁ o.bound_pos o.bound_le
  · rw [hdrawn, hone, Generator.wordsNeeded, Generator.isOpen_one]
    rfl

/-- The first word alone would make the number zero. Without a choice of numbers it is all that is drawn. -/
theorem fileName_of_carrying_words :
    let g := Generator.cycle [42950, 0xffffffff]
    (({} : Options).fileName g).1 = "out1.png" ∧
      Generator.upper 42950 99999 + 1 < 99999 ∧
      (({} : Options).fileName g).2 = { g with drawn := 2 } ∧
      (({ maxSuffix := 0 } : Options).fileName g).2 = { g with drawn := 1 } := by
  intro g
  obtain ⟨hname, -, hcarry, htwo, -, -⟩ := fileName_scales_words {} g
  obtain ⟨-, -, -, -, -, hone⟩ := fileName_scales_words { maxSuffix := 0 } g
  have hnumber : Generator.scaled (g.word g.drawn) (g.word (g.drawn + 1)) ({} : Options).bound = 1 := by
    decide +kernel
  rw [hnumber] at hname
  refine ⟨hname.trans (by decide +kernel), (hcarry (by decide +kernel) (by decide +kernel)).1,
    htwo.2 ⟨0, 0xffffffff, by decide +kernel⟩, hone rfl⟩

theorem Valid.names_iff {o : Options} (h : o.Valid) {name : String} :
    o.Names name ↔ ∃ n < o.maxSuffix.toNat, name = o.nameOf n := by
  rw [Names, h.bound_eq]

end Options

end SaveAs
