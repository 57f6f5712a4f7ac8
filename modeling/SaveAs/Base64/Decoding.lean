import SaveAs.Base64.Encoding
import SaveAs.Decimal

/-!
# Base64: lenient decoding

Padding may be whole, partial or missing; bits that the last symbol does not need must be zero. The
input is read in groups of four, and the last group, which may be short, is judged on its own. Every
defect is reported with its byte and its offset.
-/

namespace SaveAs.Base64

/-- What keeps a text from being base64. -/
inductive Defect
  | symbol (byte : UInt8) (offset : Nat)
  | length (symbols : Nat)
  | lastSymbol (byte : UInt8) (offset : Nat)
  deriving DecidableEq, Repr

def Defect.message : Defect → String
  | symbol b i => "Invalid symbol " ++ Decimal.text b.toNat ++ ", offset " ++ Decimal.text i ++ "."
  | length n => "Invalid input length: " ++ Decimal.text n
  | lastSymbol b i =>
    "Invalid last symbol " ++ Decimal.text b.toNat ++ ", offset " ++ Decimal.text i ++ "."

/-- The number of a symbol, which stands at an offset. -/
def valueAt (b : UInt8) (offset : Nat) : Except Defect Nat :=
  match value? b with
  | some n => .ok n
  | none => .error (.symbol b offset)

/-- Three bytes from four six-bit numbers. -/
def joinQuad (p q r s : Nat) : List UInt8 :=
  [UInt8.ofNat (p * 4 + q / 16), UInt8.ofNat (q % 16 * 16 + r / 4), UInt8.ofNat (r % 4 * 64 + s)]

/-- A group of four symbols that is not the last one. -/
def decodeQuad (a b c d : UInt8) (offset : Nat) : Except Defect (List UInt8) := do
  let p ← valueAt a offset
  let q ← valueAt b (offset + 1)
  let r ← valueAt c (offset + 2)
  let s ← valueAt d (offset + 3)
  return joinQuad p q r s

/-- The rest of the last group after a `=` at an offset: nothing but `=`. -/
def expectPadding (offset : Nat) (bytes : List UInt8) : Except Defect Unit :=
  if bytes.all (· == pad) then .ok () else .error (.symbol pad offset)

/-- The symbols of the last group, up to its padding; `position` counts those in front. -/
def lastSymbols (offset position : Nat) : List UInt8 → Except Defect (List Nat)
  | [] => .ok []
  | b :: rest =>
    if b = pad then
      if position < 2 then .error (.symbol pad (offset + position))
      else do
        expectPadding (offset + position) rest
        return []
    else do
      let n ← valueAt b (offset + position)
      return n :: (← lastSymbols offset (position + 1) rest)

/-- The bytes of the last group, whose symbols are at most four. -/
def joinLast (offset : Nat) : List Nat → Except Defect (List UInt8)
  | [] => .ok []
  | [_] => .error (.length (offset + 1))
  | [p, q] =>
    if q % 16 = 0 then .ok [UInt8.ofNat (p * 4 + q / 16)]
    else .error (.lastSymbol (symbol q) (offset + 1))
  | [p, q, r] =>
    if r % 4 = 0 then .ok [UInt8.ofNat (p * 4 + q / 16), UInt8.ofNat (q % 16 * 16 + r / 4)]
    else .error (.lastSymbol (symbol r) (offset + 2))
  | p :: q :: r :: s :: _ => .ok (joinQuad p q r s)

def decodeLast (offset : Nat) (group : List UInt8) : Except Defect (List UInt8) := do
  joinLast offset (← lastSymbols offset 0 group)

/-- The groups from an offset on: four bytes that others follow, and a last group. -/
def decodeGroups (offset : Nat) : List UInt8 → Except Defect (List UInt8)
  | a :: b :: c :: d :: e :: rest => do
    let bytes ← decodeQuad a b c d offset
    return bytes ++ (← decodeGroups (offset + 4) (e :: rest))
  | group => decodeLast offset group

/-- A byte left alone in the last group is judged first. -/
def checkLoneByte (bytes : List UInt8) : Except Defect Unit :=
  if bytes.length % 4 = 1 then
    match bytes.getLast? with
    | some b => if b = pad then .ok () else (valueAt b (bytes.length - 1)).map fun _ => ()
    | none => .ok ()
  else .ok ()

/-- The bytes that a list of ASCII symbols denotes. -/
def decodeBytes (bytes : List UInt8) : Except Defect (List UInt8) := do
  checkLoneByte bytes
  decodeGroups 0 bytes

def utf8 (s : String) : List UInt8 :=
  s.toList.flatMap String.utf8EncodeChar

def decode (text : String) : Except Defect (List UInt8) :=
  decodeBytes (utf8 text)

end SaveAs.Base64
