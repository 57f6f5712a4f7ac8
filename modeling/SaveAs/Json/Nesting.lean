import SaveAs.Json.Token

/-!
# Passing over a value

The machine of `Parser` without the values: it only follows how brackets nest, and where names,
colons and commas stand. Strings and numbers are passed over as they are cut out, whether or not they
denote anything.
-/

namespace SaveAs.Json

/-- What may come next inside a value that is passed over. -/
inductive Awaiting
  | value
  | firstItem
  | firstName
  | name
  | colon
  | afterItem
  deriving DecidableEq, Repr

/-- A value under way: the brackets still open, innermost first, and what may come next. -/
structure Nesting where
  stack : List Bracket
  awaiting : Awaiting
  deriving DecidableEq, Repr

namespace Nesting

/-- In front of a value that is to be passed over. -/
def start : Nesting := ⟨[], .value⟩

/-- A value ended inside these brackets; `none` if it was the outermost one. -/
private def ended : List Bracket → Option Nesting
  | [] => none
  | stack => some ⟨stack, .afterItem⟩

private def value (stack : List Bracket) : Token → Except Unit (Option Nesting)
  | .null | .boolean _ | .number _ | .string _ => .ok (ended stack)
  | .opening .square => .ok (some ⟨.square :: stack, .firstItem⟩)
  | .opening .curly => .ok (some ⟨.curly :: stack, .firstName⟩)
  | _ => .error ()

/-- One token: an error if it cannot stand here, `none` if it ends the value. -/
def step : Nesting → Token → Except Unit (Option Nesting)
  | ⟨stack, .value⟩, t => value stack t
  | ⟨.square :: stack, .firstItem⟩, .closing .square => .ok (ended stack)
  | ⟨stack, .firstItem⟩, t => value stack t
  | ⟨.curly :: stack, .firstName⟩, .closing .curly => .ok (ended stack)
  | ⟨stack, .firstName⟩, .string _ => .ok (some ⟨stack, .colon⟩)
  | ⟨stack, .name⟩, .string _ => .ok (some ⟨stack, .colon⟩)
  | ⟨stack, .colon⟩, .colon => .ok (some ⟨stack, .value⟩)
  | ⟨.square :: stack, .afterItem⟩, .comma => .ok (some ⟨.square :: stack, .value⟩)
  | ⟨.curly :: stack, .afterItem⟩, .comma => .ok (some ⟨.curly :: stack, .name⟩)
  | ⟨b :: stack, .afterItem⟩, .closing b' => if b = b' then .ok (ended stack) else .error ()
  | _, _ => .error ()

end Nesting

end SaveAs.Json
