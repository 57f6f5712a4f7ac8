/-!
# Bytes as hexadecimal text

Two lowercase digits for a byte, the high half first.
-/

namespace SaveAs.Hex

def digit (d : Nat) : Char :=
  if d < 10 then Char.ofNat (48 + d) else Char.ofNat (87 + d)

def digitValue? (c : Char) : Option Nat :=
  if '0' ≤ c ∧ c ≤ '9' then some (c.toNat - 48)
  else if 'a' ≤ c ∧ c ≤ 'f' then some (c.toNat - 87)
  else if 'A' ≤ c ∧ c ≤ 'F' then some (c.toNat - 55)
  else none

def encodeList : List UInt8 → List Char
  | [] => []
  | b :: rest => digit (b.toNat / 16) :: digit (b.toNat % 16) :: encodeList rest

/-- The bytes that a text of digit pairs denotes, if it is one. -/
def decodeList : List Char → Option (List UInt8)
  | [] => some []
  | [_] => none
  | hi :: lo :: rest => do
    let h ← digitValue? hi
    let l ← digitValue? lo
    return UInt8.ofNat (16 * h + l) :: (← decodeList rest)

def encode (bytes : List UInt8) : String :=
  String.ofList (encodeList bytes)

def decode (text : String) : Option (List UInt8) :=
  decodeList text.toList

/-- A code point in lowercase digits, as few as it takes. -/
def ofNat (n : Nat) : List Char :=
  if n < 16 then [digit n] else ofNat (n / 16) ++ [digit (n % 16)]
termination_by n
decreasing_by omega

end SaveAs.Hex
