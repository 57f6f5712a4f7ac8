import SaveAs.Json.Value
import SaveAs.Options.Setting

/-!
# Options from a value

An object gives fields by name, and its members count in the order of their names; an array gives
them by position.
-/

namespace SaveAs.Options

def Found.ofNumber : Json.Number → Found
  | .integer n => integer n
  | .float x => float x

def Found.ofValue : Json.Value → Found
  | .null => null
  | .boolean b => boolean b
  | .number n => ofNumber n
  | .string s => string s
  | .array _ => sequence
  | .object _ => map

/-- The settings of an object: the known members, in the order of their names. -/
def settingsOfMembers (members : List (String × Json.Value)) : Except ReadError (List Setting) :=
  (Field.sorted.filterMap fun f => (Json.Value.member? members f.key).map fun v => (f, v)).mapM
    fun (f, v) => f.accept (.ofValue v)

def settingsOfItems (items : List Json.Value) : Except ReadError (List Setting) := do
  let settings ← (Field.positional.zip items).mapM fun (f, v) => f.accept (.ofValue v)
  if Field.positional.length < items.length then throw (.tooLong items.length)
  return settings

/-- Reads options from a value; fields that it does not give have their defaults. -/
def ofValue : Json.Value → Except ReadError Options
  | .object members => (settingsOfMembers members).map ofSettings
  | .array items => (settingsOfItems items).map ofSettings
  | v => .error (.wrongType (.ofValue v) .options)

end SaveAs.Options
