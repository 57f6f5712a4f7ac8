import SaveAs.Binary64.Basic
import SaveAs.Decimal

/-!
# The fewest digits that read back

The numbers that round to `x` form an interval around it, whose ends belong to it when the mantissa
is even. For one, two, three, … digits the two neighbours of `x` on that decimal grid are tried: the
first grid with a neighbour inside the interval gives the digits, and of two such neighbours the
nearer.
-/

namespace SaveAs

/-- The number `significand · 10 ^ scale`. -/
structure Scientific where
  significand : Nat
  scale : Int
  deriving DecidableEq, Repr

/-- Zeros at the end of the significand move into the scale. -/
def Scientific.trim (significand : Nat) (scale : Int) : Scientific :=
  if significand = 0 then ⟨0, scale⟩
  else if significand % 10 = 0 then Scientific.trim (significand / 10) (scale + 1)
  else ⟨significand, scale⟩
termination_by significand
decreasing_by omega

namespace Binary64

/-- Whether the decimal `n · 10 ^ scale` rounds to `x`. -/
def roundsTo (x : Binary64) (n : Nat) (scale : Int) : Bool :=
  -- In units of `2 ^ (exponent - 2)` the interval reaches from `4m - below` to `4m + 2`.
  let below := if x.mantissa = mantissaBound / 2 ∧ leastExponent < x.exponent then 1 else 2
  let num := 4 * n * Nat.pow 10 scale.toNat * x.denominator
  let unit := Nat.pow 10 (-scale).toNat <<< x.exponent.toNat
  let low := (4 * x.mantissa - below) * unit
  let high := (4 * x.mantissa + 2) * unit
  if x.mantissa % 2 = 0 then decide (low ≤ num ∧ num ≤ high)
  else decide (low < num ∧ num < high)

/-- The decimal exponent of the leading digit of a number other than zero. -/
def leadingDigit (x : Binary64) : Int :=
  let whole := x.numerator / x.denominator
  if whole = 0 then
    -- the least `k` with `1 ≤ x · 10 ^ k`
    let inverse := (x.denominator + x.numerator - 1) / x.numerator
    .negOfNat (Decimal.digits (inverse - 1)).length
  else (Decimal.digits whole).length - 1

/-- How a number halfway between two decimals of the fewest digits is written. -/
inductive Tie
  | toEven
  | up

/-- The neighbours of `x` on the grid of step `10 ^ scale` that read back as `x`, the nearer one. -/
def nearestOn (tie : Tie) (x : Binary64) (scale : Int) : Option Nat :=
  let num := x.numerator * Nat.pow 10 (-scale).toNat
  let den := x.denominator * Nat.pow 10 scale.toNat
  let floor := num / den
  let twice := 2 * (num % den)
  match x.roundsTo floor scale, x.roundsTo (floor + 1) scale with
  | true, true =>
    if twice < den then some floor
    else if den < twice then some (floor + 1)
    else match tie with
      | .up => some (floor + 1)
      | .toEven => some (floor + floor % 2)
  | true, false => some floor
  | false, true => some (floor + 1)
  | false, false => none

/-- The shortest decimal that reads back as the magnitude of `x`, of those the nearest. -/
def shortest (tie : Tie) (x : Binary64) : Scientific :=
  if x.isZero then ⟨0, 0⟩
  else
    let lead := x.leadingDigit
    let hit := (List.range 17).findSome? fun more : Nat =>
      (x.nearestOn tie (lead - more)).map fun n => Scientific.trim n (lead - more)
    hit.getD ⟨0, 0⟩

end Binary64

end SaveAs
