import SaveAs.Decimal
import SaveAs.Generator
import SaveAs.Options.Basic

/-!
# File names

A file name is the stem, a random number in decimal, a point and the extension. `number?` reads the
number back from a name, and `mask` hides it, since a name that is drawn from words which nobody sets differs
from run to run.
-/

namespace SaveAs.Options

def nameOf (o : Options) (n : Nat) : String :=
  o.stem ++ Decimal.text n ++ "." ++ o.extension

def fileName (o : Options) (g : Generator) : String × Generator :=
  let (n, g) := g.below o.bound
  (o.nameOf n, g)

/-- The first `count` names that a generator gives, and the generator after them. -/
def fileNames (o : Options) : Nat → Generator → List String × Generator
  | 0, g => ([], g)
  | count + 1, g =>
    let (name, g) := o.fileName g
    let (names, g) := fileNames o count g
    (name :: names, g)

private def dropFront? : List Char → List Char → Option (List Char)
  | [], cs => some cs
  | d :: ds, c :: cs => if c = d then dropFront? ds cs else none
  | _ :: _, [] => none

private def dropBack? (back cs : List Char) : Option (List Char) :=
  (dropFront? back.reverse cs.reverse).map List.reverse

/-- The number of a name that `nameOf` makes below the bound. -/
def number? (o : Options) (name : String) : Option Nat := do
  let rest ← dropFront? o.stem.toList name.toList
  let digits ← dropBack? ('.' :: o.extension.toList) rest
  if Decimal.canonical digits && Decimal.value digits < o.bound then some (Decimal.value digits)
  else none

/-- A name with its number hidden, where the options leave a choice of numbers. -/
def mask (o : Options) (name : String) : String :=
  if 1 < o.bound ∧ (o.number? name).isSome then o.stem ++ "<N>." ++ o.extension else name

/-! ### What is read back -/

private theorem dropFront?_eq_some_iff {front cs rest : List Char} :
    dropFront? front cs = some rest ↔ cs = front ++ rest := by
  induction front, cs using dropFront?.induct with
  | case1 cs => simp [dropFront?]
  | case2 ds c cs ih => simp [dropFront?, ih]
  | case3 d ds c cs hne => simp [dropFront?, hne]
  | case4 d ds => simp [dropFront?]

private theorem dropBack?_eq_some_iff {back cs rest : List Char} :
    dropBack? back cs = some rest ↔ cs = rest ++ back := by
  rw [dropBack?, Option.map_eq_some_iff]
  constructor
  · rintro ⟨reversed, hdrop, rfl⟩
    rw [← List.reverse_inj, dropFront?_eq_some_iff.1 hdrop]
    simp
  · rintro rfl
    exact ⟨rest.reverse, dropFront?_eq_some_iff.2 (by simp), rest.reverse_reverse⟩

/-- A number is read from what stands between the stem and the point of the extension. -/
theorem number?_eq_some_iff {o : Options} {name : String} {n : Nat} :
    o.number? name = some n ↔
      ∃ digits, name.toList = o.stem.toList ++ (digits ++ '.' :: o.extension.toList) ∧
        Decimal.canonical digits = true ∧ Decimal.value digits = n ∧ n < o.bound := by
  simp only [number?, Option.bind_eq_bind, Option.bind_eq_some_iff, dropFront?_eq_some_iff,
    dropBack?_eq_some_iff, Option.ite_none_right_eq_some, Bool.and_eq_true, decide_eq_true_iff,
    Option.some.injEq]
  constructor
  · rintro ⟨_, hname, digits, rfl, ⟨hcanonical, hbound⟩, rfl⟩
    exact ⟨digits, hname, hcanonical, rfl, hbound⟩
  · rintro ⟨digits, hname, hcanonical, rfl, hbound⟩
    exact ⟨_, hname, digits, rfl, ⟨hcanonical, hbound⟩, rfl⟩

end SaveAs.Options
