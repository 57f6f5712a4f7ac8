import SaveAs.Json.Printer

/-!
# Values of a page, written out

A literal is a value of a page as a tree: what goes into a page and what is shown of it. An object may
be frozen, may lack a prototype, and may throw on every read or write of a property. An error is shown
by its name and its message, which are texts unless the page has put something else in their place.
-/

namespace SaveAs.Page

inductive Literal
  | undefined
  | null
  | boolean (b : Bool)
  | number (x : Binary64)
  | string (s : String)
  | array (items : List Literal)
  | object (properties : List (String × Literal)) (frozen bare : Bool)
      (getThrows setThrows : Option Literal)
  | function
  | error (name message : Literal)
  deriving Repr

namespace Literal

def plain (properties : List (String × Literal)) : Literal :=
  object properties false false none none

def exception (name message : String) : Literal := error (string name) (string message)

def typeError (message : String) : Literal := exception "TypeError" message

def string? : Literal → Option String
  | string s => some s
  | _ => none

/-- Whole numbers of 64 bits are shown as integers. -/
def numberJson (x : Binary64) : Json.Value :=
  match x.toInt? with
  | some n => .number (if n.natAbs < Json.signedBound then .integer n else .float x)
  | none => .number (.float x)

private def tagged (tag : String) (more : List (String × Json.Value)) : Json.Value :=
  .object (("$", .string tag) :: more)

mutual

/-- A literal as it is shown: what JSON lacks is an object with a `$`. -/
def toJson : Literal → Json.Value
  | undefined => tagged "undefined" []
  | null => .null
  | boolean b => .boolean b
  | number x => numberJson x
  | string s => .string s
  | array items => .array (itemsToJson items)
  | object properties _ _ _ _ => .object (propertiesToJson properties)
  | function => tagged "function" []
  | error name message => tagged "error" [("name", name.toJson), ("message", message.toJson)]

private def itemsToJson : List Literal → List Json.Value
  | [] => []
  | v :: rest => v.toJson :: itemsToJson rest

private def propertiesToJson : List (String × Literal) → List (String × Json.Value)
  | [] => []
  | (name, v) :: rest => (name, v.toJson) :: propertiesToJson rest

end

mutual

/-- The JSON that stands for a literal inside an object: functions and undefined properties are left
out, and are null in an array. All numbers are binary64. -/
private def stringify? : Literal → Option Json.Value
  | undefined => none
  | function => none
  | null => some .null
  | boolean b => some (.boolean b)
  | number x => some (.number (.float x))
  | string s => some (.string s)
  | array items => some (.array (stringifyItems items))
  | object properties _ _ _ _ => some (.object (stringifyProperties properties))
  | error _ _ => some (.object [])

private def stringifyItems : List Literal → List Json.Value
  | [] => []
  | v :: rest => v.stringify?.getD .null :: stringifyItems rest

private def stringifyProperties : List (String × Literal) → List (String × Json.Value)
  | [] => []
  | (name, v) :: rest =>
    match v.stringify? with
    | some j => (name, j) :: stringifyProperties rest
    | none => stringifyProperties rest

end

mutual

private def inspect : Literal → String
  | undefined => "undefined"
  | null => "null"
  | boolean true => "true"
  | boolean false => "false"
  | number x => x.render .page
  | string s => "\"" ++ s ++ "\""
  | array items => "[" ++ ", ".intercalate (inspectItems items) ++ "]"
  | object properties _ _ _ _ =>
    "Object(" ++ (Json.Value.object (stringifyProperties properties)).render .page ++ ")"
  | function => "Function"
  | error name message =>
    name.string?.getD name.inspect ++ ": " ++ message.string?.getD message.inspect

private def inspectItems : List Literal → List String
  | [] => []
  | v :: rest => v.inspect :: inspectItems rest

end

/-- A literal inside an error text. -/
def describe (v : Literal) : String := "JsValue(" ++ v.inspect ++ ")"

/-- The key under which a handle is kept: a text itself, anything else as it is shown. -/
def key : Literal → String
  | string s => s
  | v => v.toJson.render .message

/-! ### Reading what is shown -/

/-- What a JSON value shows: the literal, and the members as properties, in the order of their names. -/
private structure Shown where
  literal : Literal
  properties : List (String × Literal) := []

/-- The member of a name, the last of several. -/
private def member? (members : List (String × Shown)) (name : String) : Option Shown :=
  members.reverse.lookup name

private def isTrue : Option Shown → Bool
  | some ⟨boolean b, _⟩ => b
  | _ => false

private def textOf (v : Option Shown) : String :=
  (v.bind (·.literal.string?)).getD ""

private def sorted (members : List (String × Shown)) : List (String × Literal) :=
  (members.map fun m => (m.1, m.2.literal)).mergeSort fun a b => !decide (b.1 < a.1)

/-- The literal that an object shows: its `$` says what is not an object of plain properties. -/
private def ofMembers (members : List (String × Shown)) : Literal :=
  match (member? members "$").bind (·.literal.string?) with
  | some "undefined" => undefined
  | some "function" => function
  | some "error" =>
    exception (textOf (member? members "name")) (textOf (member? members "message"))
  | some "object" =>
    object (((member? members "props").map (·.properties)).getD [])
      (isTrue (member? members "frozen")) (isTrue (member? members "null_proto"))
      ((member? members "get_throws").map (·.literal))
      ((member? members "set_throws").map (·.literal))
  | _ => plain (sorted members)

mutual

private def shownBy : Json.Value → Shown
  | .null => { literal := null }
  | .boolean b => { literal := boolean b }
  | .number (.float x) => { literal := number x }
  | .number (.integer n) => { literal := number ((Binary64.ofInt n).getD (.zero false)) }
  | .string s => { literal := string s }
  | .array items => { literal := array (itemsShownBy items) }
  | .object members =>
    let members := membersShownBy members
    { literal := ofMembers members, properties := sorted members }

private def itemsShownBy : List Json.Value → List Literal
  | [] => []
  | v :: rest => (shownBy v).literal :: itemsShownBy rest

private def membersShownBy : List (String × Json.Value) → List (String × Shown)
  | [] => []
  | (name, v) :: rest => (name, shownBy v) :: membersShownBy rest

end

def ofJson (v : Json.Value) : Literal :=
  (shownBy v).literal

end Literal

end SaveAs.Page
