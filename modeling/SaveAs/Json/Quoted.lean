import SaveAs.Hex

/-!
# Quoted strings

`Piece.scan` takes the body of a quoted string apart, escape by escape; `Piece.join` puts the pieces
together, two surrogate code units next to each other making one character and a lone one none.
`escape` is the way back.
-/

namespace SaveAs.Json

/-- A character of a string body, or the code unit of a `\u` escape. -/
inductive Piece
  | char (c : Char)
  | unit (n : Nat)
  deriving DecidableEq, Repr

namespace Piece

/-- The code unit that four hexadecimal digits denote. -/
def hex4 (a b c d : Char) : Option Nat := do
  let a ← Hex.digitValue? a
  let b ← Hex.digitValue? b
  let c ← Hex.digitValue? c
  let d ← Hex.digitValue? d
  return ((a * 16 + b) * 16 + c) * 16 + d

def short : Char → Option Char
  | '"' => some '"'
  | '\\' => some '\\'
  | '/' => some '/'
  | 'b' => some '\x08'
  | 'f' => some '\x0c'
  | 'n' => some '\n'
  | 'r' => some '\r'
  | 't' => some '\t'
  | _ => none

/-- The pieces up to the closing quote, and the rest after it. -/
def scan : List Char → Option (List Piece × List Char)
  | [] => none
  | '"' :: rest => some ([], rest)
  | '\\' :: 'u' :: a :: b :: c :: d :: rest => do
    let n ← hex4 a b c d
    let (pieces, rest) ← scan rest
    return (unit n :: pieces, rest)
  | '\\' :: e :: rest => do
    let c ← short e
    let (pieces, rest) ← scan rest
    return (char c :: pieces, rest)
  | c :: rest =>
    if c = '\\' ∨ c.toNat < 0x20 then none
    else do
      let (pieces, rest) ← scan rest
      return (char c :: pieces, rest)

def isHigh (n : Nat) : Bool := 0xD800 ≤ n && n ≤ 0xDBFF

def isLow (n : Nat) : Bool := 0xDC00 ≤ n && n ≤ 0xDFFF

/-- The characters that the pieces stand for, unless a surrogate stands alone. -/
def join : List Piece → Option (List Char)
  | [] => some []
  | char c :: rest => (join rest).map (c :: ·)
  | unit n :: rest =>
    if isHigh n then
      match rest with
      | unit m :: rest =>
        if isLow m then
          (join rest).map (Char.ofNat (0x10000 + (n - 0xD800) * 0x400 + (m - 0xDC00)) :: ·)
        else none
      | _ => none
    else if isLow n then none
    else (join rest).map (Char.ofNat n :: ·)

end Piece

def escapeChar (c : Char) : List Char :=
  if c = '"' then ['\\', '"']
  else if c = '\\' then ['\\', '\\']
  else if c = '\n' then ['\\', 'n']
  else if c = '\r' then ['\\', 'r']
  else if c = '\t' then ['\\', 't']
  else if c = '\x08' then ['\\', 'b']
  else if c = '\x0c' then ['\\', 'f']
  else if c.toNat < 0x20 then
    ['\\', 'u', '0', '0', Hex.digit (c.toNat / 16), Hex.digit (c.toNat % 16)]
  else [c]

def quote (cs : List Char) : List Char :=
  '"' :: cs.flatMap escapeChar ++ ['"']

end SaveAs.Json
