import SaveAs.Binary64.Shortest

/-!
# Binary64 numbers as text

A `Layout` says where positional notation ends, whether a whole number keeps a fraction, and which
way a tie among the shortest decimals goes. The digits come from `Binary64.shortest`.
-/

namespace SaveAs

structure Layout where
  /-- The decimal exponents of the leading digit that are written without an exponent. -/
  positional : Int → Bool
  /-- Whether a whole number in positional notation ends in `.0`. -/
  pointZero : Bool
  /-- Whether a negative zero keeps its sign. -/
  signedZero : Bool
  tie : Binary64.Tie

namespace Layout

/-- Numbers in reading errors and in JSON: positional from `0.00001` to below `10 ^ 16`, with a
fraction. -/
def message : Layout := ⟨fun e => -5 ≤ e && e ≤ 15, true, true, .toEven⟩

/-- Numbers in configuration errors: never an exponent, always a fraction. -/
def plain : Layout := ⟨fun _ => true, true, true, .up⟩

/-- Numbers of a page: positional from `0.000001` to below `10 ^ 21`, whole ones bare. -/
def page : Layout := ⟨fun e => -6 ≤ e && e ≤ 20, false, false, .toEven⟩

end Layout

namespace Binary64

private def zeros (n : Nat) : List Char := List.replicate n '0'

private def positionalText (pointZero : Bool) (digits : List Char) (scale : Int) : List Char :=
  if 0 ≤ scale then
    digits ++ zeros scale.toNat ++ if pointZero then ['.', '0'] else []
  else
    let after := (-scale).toNat
    if after < digits.length then
      digits.take (digits.length - after) ++ '.' :: digits.drop (digits.length - after)
    else '0' :: '.' :: zeros (after - digits.length) ++ digits

private def exponentText (digits : List Char) (lead : Int) : List Char :=
  let mantissa := match digits with
    | d :: e :: rest => d :: '.' :: e :: rest
    | short => short
  mantissa ++ 'e' :: (if lead < 0 then '-' else '+') :: Decimal.digits lead.natAbs

def render (layout : Layout) (x : Binary64) : String :=
  let s := x.shortest layout.tie
  let digits := Decimal.digits s.significand
  let lead := s.scale + digits.length - 1
  let sign := if x.negative && (layout.signedZero || !x.isZero) then ['-'] else []
  let body :=
    if layout.positional lead then positionalText layout.pointZero digits s.scale
    else exponentText digits lead
  String.ofList (sign ++ body)

end Binary64

end SaveAs
