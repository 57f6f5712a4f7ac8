import SaveAs.Binary64.Basic
import SaveAs.Decimal

/-!
# Number literals

`Literal.scan` takes the longest number literal off a text by the grammar of RFC 8259; `Literal.value`
says what it denotes. A literal without fraction and exponent is an integer if it lies within
`-2^63 .. 2^64 - 1` and is not `-0`; every other literal is a binary64 number.
-/

namespace SaveAs.Json

/-- A JSON number: integers are kept apart from binary64 numbers. -/
inductive Number
  | integer (n : Int)
  | float (x : Binary64)
  deriving DecidableEq, Repr

/-- A number literal: sign, integer digits, digits after the point, sign and digits of the exponent. -/
structure Literal where
  negative : Bool
  whole : List Char
  fraction : Option (List Char)
  exponent : Option (Bool × List Char)
  deriving DecidableEq, Repr

/-- Signed integers of 64 bits are below this, and not below its negative. -/
def signedBound : Nat := UInt64.size / 2

namespace Literal

def spanDigits (cs : List Char) : List Char × List Char :=
  (cs.takeWhile Decimal.isDigit, cs.dropWhile Decimal.isDigit)

/-- Integer digits: a zero stands alone. -/
def scanWhole (cs : List Char) : Option (List Char × List Char) :=
  match spanDigits cs with
  | ([], _) => none
  | ('0' :: _ :: _, _) => none
  | (digits, rest) => some (digits, rest)

def scanFraction : List Char → Option (Option (List Char) × List Char)
  | '.' :: cs =>
    match spanDigits cs with
    | ([], _) => none
    | (digits, rest) => some (some digits, rest)
  | cs => some (none, cs)

def scanMinus : List Char → Bool × List Char
  | '-' :: cs => (true, cs)
  | cs => (false, cs)

/-- The sign of an exponent, which may also be a plus. -/
def scanSign : List Char → Bool × List Char
  | '-' :: cs => (true, cs)
  | '+' :: cs => (false, cs)
  | cs => (false, cs)

def scanExponent : List Char → Option (Option (Bool × List Char) × List Char)
  | c :: cs =>
    if c = 'e' ∨ c = 'E' then
      let (negative, cs) := scanSign cs
      match spanDigits cs with
      | ([], _) => none
      | (digits, rest) => some (some (negative, digits), rest)
    else some (none, c :: cs)
  | [] => some (none, [])

/-- The literal in front of a text that starts with a digit or a minus, and the rest. -/
def scan (cs : List Char) : Option (Literal × List Char) := do
  let (whole, afterWhole) ← scanWhole (scanMinus cs).2
  let (fraction, afterFraction) ← scanFraction afterWhole
  let (exponent, rest) ← scanExponent afterFraction
  return (⟨(scanMinus cs).1, whole, fraction, exponent⟩, rest)

/-! ### The value

Digits are collected as long as the number they form fits 64 bits. Integer digits that no longer fit
raise the power of ten instead, and a digit after the point that no longer fits ends the collection.
-/

/-- Integer digits: the number collected, and how many digits were left out. -/
def collectWhole : Nat → List Char → Nat × Nat
  | n, [] => (n, 0)
  | n, c :: rest =>
    let n' := 10 * n + Decimal.digitValue c
    if n' < UInt64.size then collectWhole n' rest else (n, (c :: rest).length)

/-- Digits after the point: the number collected, and how many digits went into it. -/
def collectFraction : Nat → Nat → List Char → Nat × Nat
  | n, taken, [] => (n, taken)
  | n, taken, c :: rest =>
    let n' := 10 * n + Decimal.digitValue c
    if n' < UInt64.size then collectFraction n' (taken + 1) rest else (n, taken)

def greatestPower : Nat := 308

/-- `10 ^ k`, for `k` up to `greatestPower`. -/
def power (k : Nat) : Option Binary64 := Binary64.ofNat (Nat.pow 10 k)

/-- `x / 10 ^ k`, one division for every 308 places, each of them rounded. -/
def scaleDown (x : Binary64) (k : Nat) : Option Binary64 :=
  if k ≤ greatestPower then do x.div (← power k)
  else if x.isZero then some x
  else do scaleDown (← x.div (← power greatestPower)) (k - greatestPower)
termination_by k
decreasing_by simp only [greatestPower] at *; omega

/-- `n · 10 ^ k`, rounded once for `n` and once for the product or each quotient. -/
def scale (n : Nat) (k : Int) : Option Binary64 := do
  let x ← Binary64.ofNat n
  if 0 ≤ k then
    if k.toNat ≤ greatestPower then x.mul (← power k.toNat)
    else if x.isZero then some x else none
  else scaleDown x (-k).toNat

/-- The binary64 number of a literal, unless it lies beyond the finite ones. -/
def float (l : Literal) : Option Binary64 := do
  let (n, left) := collectWhole 0 l.whole
  let (n, taken) := collectFraction n 0 (l.fraction.getD [])
  let k : Int := match l.exponent with
    | none => 0
    | some (negative, digits) =>
      let k : Int := Decimal.value digits
      if negative then -k else k
  let x ← scale n (left - taken + k)
  return { x with negative := l.negative }

def integer (l : Literal) : Int :=
  let n : Int := Decimal.value l.whole
  if l.negative then -n else n

/-- Whether the literal denotes an integer: `-0` does not. -/
def isInteger (l : Literal) : Bool :=
  l.fraction.isNone && l.exponent.isNone &&
    (if l.negative then l.integer ≠ 0 && -signedBound ≤ l.integer else l.integer < UInt64.size)

/-- What a literal denotes, unless it lies beyond the finite binary64 numbers. -/
def value (l : Literal) : Option Number :=
  if l.isInteger then some (.integer l.integer) else l.float.map .float

end Literal

end SaveAs.Json
