/-!
# Finite binary64 numbers

A number is `± mantissa · 2 ^ exponent` with a mantissa of at most 53 bits. Arithmetic is exact on
natural numbers up to one rounding at the end, to the nearest number with a half going to the even
neighbour; a result beyond the largest finite number is `none`.
-/

namespace SaveAs

structure Binary64 where
  negative : Bool
  mantissa : Nat
  exponent : Int
  deriving DecidableEq, Repr

namespace Binary64

/-- The quotient to the nearest integer, a half going to the even one. -/
def divNearestEven (n d : Nat) : Nat :=
  if 2 * (n % d) < d then n / d
  else if d < 2 * (n % d) then n / d + 1
  else n / d + n / d % 2

/-- The exponent of the leading bit of a positive quotient. -/
def leadingBit (num den : Nat) : Int :=
  let k : Int := (num.log2 : Int) - den.log2
  if num <<< (-k).toNat < den <<< k.toNat then k - 1 else k

/-- One more than the greatest mantissa. -/
def mantissaBound : Nat := 1 <<< 53

def leastExponent : Int := -1074

def greatestExponent : Int := 971

def zero (negative : Bool) : Binary64 := ⟨negative, 0, leastExponent⟩

/-- The number nearest to `± num / den`, for a positive `den`. -/
def ofRatio (negative : Bool) (num den : Nat) : Option Binary64 :=
  if num = 0 then some (zero negative)
  else
    let e := max (leadingBit num den - 52) leastExponent
    let m := divNearestEven (num <<< (-e).toNat) (den <<< e.toNat)
    let (m, e) := if m = mantissaBound then (mantissaBound / 2, e + 1) else (m, e)
    if greatestExponent < e then none else some ⟨negative, m, e⟩

/-- The magnitude is `numerator / denominator`. -/
def numerator (x : Binary64) : Nat := x.mantissa <<< x.exponent.toNat

def denominator (x : Binary64) : Nat := 1 <<< (-x.exponent).toNat

def isZero (x : Binary64) : Bool := x.mantissa == 0

def ofNat (n : Nat) : Option Binary64 := ofRatio false n 1

def ofInt (n : Int) : Option Binary64 := ofRatio (decide (n < 0)) n.natAbs 1

def mul (x y : Binary64) : Option Binary64 :=
  ofRatio (x.negative != y.negative) (x.numerator * y.numerator) (x.denominator * y.denominator)

/-- Division by a number other than zero. -/
def div (x y : Binary64) : Option Binary64 :=
  ofRatio (x.negative != y.negative) (x.numerator * y.denominator) (x.denominator * y.numerator)

def toInt? (x : Binary64) : Option Int :=
  if x.numerator % x.denominator = 0 then
    let n : Int := x.numerator / x.denominator
    some (if x.negative then -n else n)
  else none

end Binary64

end SaveAs
