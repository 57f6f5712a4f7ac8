import SaveAs.Options.Setting
import SaveAs.Page.Basic

/-!
# Options from a page

An object of any kind but a function gives fields by the properties it has, even undefined ones, in
the order of their positions. All numbers are binary64, and a suffix bound has to be a whole number
that is exact among them.
-/

namespace SaveAs.Page

/-- What kind of value stands where a field or the options are read. -/
inductive Found
  | unit
  | boolean (b : Bool)
  | number (x : Binary64)
  | string (s : String)
  | other (v : Literal)

namespace Found

def ofValue (h : Heap) : Value → Found
  | .undefined | .null => unit
  | .boolean b => boolean b
  | .number x => number x
  | .string s => string s
  | v => other (h.literal v)

def describe : Found → String
  | unit => "unit value"
  | boolean true => "boolean `true`"
  | boolean false => "boolean `false`"
  | number x => "floating point `" ++ x.render .plain ++ "`"
  | string s => "string " ++ Text.quote s
  | other v => v.describe

/-- A whole number that is not negative and below which all integers are exact. -/
def safeNatural? : Found → Option Nat
  | number x =>
    match x.toInt? with
    | some n => if 0 ≤ n ∧ n < Binary64.mantissaBound then some n.toNat else none
    | none => none
  | _ => none

end Found

private def wrongType (found : Found) (expected : Options.Expected) : Failure :=
  .unreadable (Options.wrongTypeMessage found.describe expected)

def acceptField (f : Options.Field) (v : Found) : Except Failure Options.Setting :=
  match f, v with
  | .mimeType, .string s => .ok (.mimeType s)
  | .stem, .string s => .ok (.stem s)
  | .extension, .string s => .ok (.extension s)
  | .maxSuffix, v =>
    match v.safeNatural? with
    | some n =>
      if n < UInt32.size then .ok (.maxSuffix (UInt32.ofNat n))
      else .error (.unreadable (Options.outOfRangeMessage n))
    | none => .error (wrongType v .number)
  | f, v => .error (wrongType v f.expected)

/-- The setting of one field of an object, if it has the property. -/
private def readField (h : Heap) (target : Value) (f : Options.Field) :
    Except Failure (Option Options.Setting) := do
  let v ← (h.read target f.key).mapError .exception
  if (h.property? target f.key).isSome then return some (← acceptField f (.ofValue h v))
  return none

def readOptions (h : Heap) (v : Value) : Except Failure Options :=
  match v, h.function? v with
  | .object _, none => do
    return Options.ofSettings ((← Options.Field.positional.mapM (readField h v)).filterMap id)
  | v, _ => .error (wrongType (.ofValue h v) .options)

def optionsOf (v : Literal) : Except Failure Options :=
  let (value, h) := ({} : Heap).place v
  readOptions h value

/-- Reads and stores options, if they are valid. Nothing refers to the objects that they are read from
afterwards, so they do not enter the page's heap. -/
def configure (v : Literal) : Act Unit := do
  let o ← .ofExcept (optionsOf v)
  .ofExcept (o.validate.mapError .invalid)
  .modify fun s => { s with options := o }

end SaveAs.Page
