import SaveAs.Json.Number

/-!
# JSON values

Members keep the order of the text; a repeated name counts with its last value.
-/

namespace SaveAs.Json

inductive Value
  | null
  | boolean (b : Bool)
  | number (n : Number)
  | string (s : String)
  | array (items : List Value)
  | object (members : List (String × Value))
  deriving Repr

namespace Value

def natural (n : Nat) : Value := number (.integer n)

/-- The value of a member: of several with one name, the last. -/
def member? (members : List (String × Value)) (name : String) : Option Value :=
  members.reverse.lookup name

/-- The value under a name of an object; anything else has no members. -/
def get? (v : Value) (name : String) : Option Value :=
  match v with
  | object members => member? members name
  | _ => none

def string? : Value → Option String
  | string s => some s
  | _ => none

def natural? : Value → Option Nat
  | number (.integer n) => if 0 ≤ n then some n.toNat else none
  | _ => none

def boolean? : Value → Option Bool
  | boolean b => some b
  | _ => none

def items? : Value → Option (List Value)
  | array items => some items
  | _ => none

def members? : Value → Option (List (String × Value))
  | object members => some members
  | _ => none

end Value

end SaveAs.Json
