import SaveAs.Proofs.FileName.Equidistribution

/-!
# The number in a file name

The stem and the extension stand in a name as they are, however many digits and points they have, so what
is between them is the number's own decimal text. `number?_eq_some_iff_nameOf` reads it back from exactly
the names below the bound, and each of these is drawn from some words. So a name and the options that it
was drawn for say which number was drawn.
-/

namespace SaveAs.Options

variable {o : Options} {name : String} {n : Nat} {rest : List Char}

theorem toList_nameOf (o : Options) (n : Nat) :
    (o.nameOf n).toList = o.stem.toList ++ (Decimal.digits n ++ '.' :: o.extension.toList) := by
  simp [nameOf, Decimal.text]

/-- Between the stem and the extension there are the digits and nothing else. -/
theorem toList_nameOf_eq_iff :
    (o.nameOf n).toList = o.stem.toList ++ (rest ++ '.' :: o.extension.toList) ↔
      rest = Decimal.digits n := by
  rw [toList_nameOf, List.append_cancel_left_eq, List.append_cancel_right_eq]
  exact eq_comm

theorem number?_eq_some_iff_nameOf : o.number? name = some n ↔ n < o.bound ∧ name = o.nameOf n := by
  rw [number?_eq_some_iff]
  constructor
  · rintro ⟨digits, hname, hcanonical, rfl, hbound⟩
    refine ⟨hbound, String.toList_inj.1 ?_⟩
    rw [hname, toList_nameOf, Decimal.digits_of_canonical hcanonical]
  · rintro ⟨hbound, rfl⟩
    exact ⟨Decimal.digits n, o.toList_nameOf n, Decimal.canonical_digits n, Decimal.value_digits n, hbound⟩

theorem isSome_number? : (o.number? name).isSome = true ↔ o.Names name := by
  simp only [Option.isSome_iff_exists, number?_eq_some_iff_nameOf, Names]

/-! ### The names that can be drawn -/

theorem fileName_eq (o : Options) (g : Generator) :
    (o.fileName g).1 = o.nameOf (g.below o.bound).1 :=
  rfl

theorem below_lt (o : Options) (g : Generator) : (g.below o.bound).1 < o.bound :=
  Generator.pick_lt _ _ o.bound_pos

/-- Every number below the bound is drawn from some words. -/
theorem exists_below_eq (hn : n < o.bound) : ∃ g : Generator, (g.below o.bound).1 = n := by
  have hquotient : 0 < UInt64.size / o.bound :=
    Nat.div_pos (o.bound_le.trans (by decide)) o.bound_pos
  have hceil := div_le_ceilDiv UInt64.size o.bound
  have hcard := Generator.ncard_drawing o.bound_pos o.bound_le hn
  obtain ⟨w, hw⟩ : (Generator.drawing o.bound n).Nonempty :=
    Set.nonempty_of_ncard_ne_zero (by omega)
  exact ⟨(Generator.cycle []).supply w.1 w.2, (Generator.below_supply _ _ _ _).trans hw⟩

theorem exists_fileName_iff : (∃ g, (o.fileName g).1 = name) ↔ o.Names name := by
  constructor
  · rintro ⟨g, rfl⟩
    exact o.names_fileName g
  · rintro ⟨n, hn, rfl⟩
    obtain ⟨g, hg⟩ := exists_below_eq hn
    exact ⟨g, congrArg o.nameOf hg⟩

theorem ncard_names (o : Options) : {name | o.Names name}.ncard = o.bound := by
  have himage : {name | o.Names name} = o.nameOf '' Finset.range o.bound := by
    ext name
    simp only [Set.mem_ofPred_eq, Names, Set.mem_image, Finset.mem_coe, Finset.mem_range, eq_comm]
  rw [himage, Set.ncard_image_of_injective _ o.nameOf_injective, Set.ncard_coe_finset, Finset.card_range]

/-- What is left of a drawn name without the stem in front and without the point and the extension behind
is the drawn number, in decimal and without leading zeros, and it is below the bound. So the names for the
same options differ exactly where the numbers do. The names that can be drawn are those that a number is
read from, as many as there are numbers below the bound. -/
theorem fileName_determines_number (o : Options) :
    (∀ g : Generator,
      let name := (o.fileName g).1
      let number := (g.below o.bound).1
      (∃ digits : List Char,
        (∀ rest, name.toList = o.stem.toList ++ (rest ++ '.' :: o.extension.toList) ↔ rest = digits) ∧
        digits ≠ [] ∧ digits.all Decimal.isDigit = true ∧ (digits = ['0'] ∨ digits.head? ≠ some '0') ∧
        Decimal.value digits = number) ∧
      number < max o.maxSuffix.toNat 1 ∧ o.number? name = some number) ∧
    (∀ g g' : Generator,
      (o.fileName g).1 = (o.fileName g').1 ↔ (g.below o.bound).1 = (g'.below o.bound).1) ∧
    (∀ name, (∃ g, (o.fileName g).1 = name) ↔ (o.number? name).isSome = true) ∧
    {name | ∃ g, (o.fileName g).1 = name}.ncard = max o.maxSuffix.toNat 1 := by
  refine ⟨fun g => ⟨?_, o.below_lt g, ?_⟩, fun g g' => ?_, fun name => ?_, ?_⟩
  · have hcanonical := Decimal.canonical_digits (g.below o.bound).1
    obtain ⟨hne, hdigits, hzero⟩ := Decimal.canonical_iff.1 hcanonical
    exact ⟨_, fun _ => toList_nameOf_eq_iff, hne, hdigits, hzero, Decimal.value_digits _⟩
  · exact number?_eq_some_iff_nameOf.2 ⟨o.below_lt g, o.fileName_eq g⟩
  · rw [fileName_eq, fileName_eq]
    exact o.nameOf_injective.eq_iff
  · rw [exists_fileName_iff, isSome_number?]
  · simp only [exists_fileName_iff]
    exact o.ncard_names

end SaveAs.Options
