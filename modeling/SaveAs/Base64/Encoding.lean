/-!
# Base64: encoding

Three bytes make four symbols of six bits. `unpadded` leaves a last group of one or two bytes at two
or three symbols, `encode` fills it up to four with `=`.
-/

namespace SaveAs.Base64

/-- The byte that stands for a number below 64. -/
def symbol (n : Nat) : UInt8 :=
  if n < 26 then UInt8.ofNat (65 + n)
  else if n < 52 then UInt8.ofNat (71 + n)
  else if n < 62 then UInt8.ofNat (n - 4)
  else if n = 62 then 43
  else 47

def value? (b : UInt8) : Option Nat :=
  let n := b.toNat
  if 65 ≤ n ∧ n ≤ 90 then some (n - 65)
  else if 97 ≤ n ∧ n ≤ 122 then some (n - 71)
  else if 48 ≤ n ∧ n ≤ 57 then some (n + 4)
  else if n = 43 then some 62
  else if n = 47 then some 63
  else none

/-- `=`, which fills the last group. -/
def pad : UInt8 := 61

def unpadded : List UInt8 → List UInt8
  | [] => []
  | [a] => [symbol (a.toNat / 4), symbol (a.toNat % 4 * 16)]
  | [a, b] =>
    [symbol (a.toNat / 4), symbol (a.toNat % 4 * 16 + b.toNat / 16), symbol (b.toNat % 16 * 4)]
  | a :: b :: c :: rest =>
    symbol (a.toNat / 4) :: symbol (a.toNat % 4 * 16 + b.toNat / 16) ::
      symbol (b.toNat % 16 * 4 + c.toNat / 64) :: symbol (c.toNat % 64) :: unpadded rest

/-- How many `=` fill the last group. -/
def padding (length : Nat) : Nat := (3 - length % 3) % 3

def asciiText (bytes : List UInt8) : String :=
  String.ofList (bytes.map fun b => Char.ofNat b.toNat)

def encode (bytes : List UInt8) : String :=
  asciiText (unpadded bytes ++ List.replicate (padding bytes.length) pad)

theorem value?_symbol {n : Nat} (h : n < 64) : value? (symbol n) = some n := by
  have h' : ∀ n : Fin 64, value? (symbol n) = some n.val := by decide
  exact h' ⟨n, h⟩

theorem value?_pad : value? pad = none := by decide

end SaveAs.Base64
