import SaveAs.Json.Nesting
import SaveAs.Options.OfValue

/-!
# Options from text

The text is read token by token, and each field is judged as soon as its value shows: a wrong type
at the value's first token, a repeated name at the name. So the leftmost defect decides, whatever
comes after it. Members with other names are passed over.
-/

namespace SaveAs.Options

/-- Where the reader stands between two tokens. -/
inductive Reading
  | start
  | firstName
  | name
  /-- In front of the colon after a name, which may be known. -/
  | colon (f : Option Field)
  | value (f : Field)
  | skipping (n : Json.Nesting)
  | afterMember
  /-- After the opening bracket, and after each comma: the fields still to come. -/
  | firstItem (fields : List Field)
  | item (fields : List Field)
  | afterItem (fields : List Field)
  | finished
  deriving DecidableEq, Repr

/-- The value that starts with a token; none does with a bracket that closes, a colon or a comma, and
a string or a number that denotes nothing is malformed. -/
def Found.ofToken : Json.Token → Except ReadError Found
  | .null => .ok null
  | .boolean b => .ok (boolean b)
  | .number l => match l.value with
    | some n => .ok (ofNumber n)
    | none => .error .malformed
  | .string pieces => match Json.Piece.join pieces with
    | some cs => .ok (string (String.ofList cs))
    | none => .error .malformed
  | .opening .square => .ok sequence
  | .opening .curly => .ok map
  | _ => .error .malformed

/-- The reader between two tokens, with the settings so far. -/
structure Reader where
  settings : List Setting
  reading : Reading

namespace Reader

def given (r : Reader) (f : Field) : Bool :=
  r.settings.any (·.field = f)

def accept (r : Reader) (f : Field) (t : Json.Token) (next : Reading) : Except ReadError Reader := do
  let found ← Found.ofToken t
  let setting ← f.accept found
  return ⟨r.settings ++ [setting], next⟩

def readName (r : Reader) : Json.Token → Except ReadError Reader
  | .string pieces => match Json.Piece.join pieces with
    | none => .error .malformed
    | some cs => match Field.ofKey? (String.ofList cs) with
      | none => .ok { r with reading := .colon none }
      | some f => if r.given f then .error (.duplicate f) else .ok { r with reading := .colon f }
  | _ => .error .malformed

/-- A token inside a member that is passed over. -/
def skip (r : Reader) (n : Json.Nesting) (t : Json.Token) : Except ReadError Reader :=
  match n.step t with
  | .error () => .error .malformed
  | .ok none => .ok { r with reading := .afterMember }
  | .ok (some n) => .ok { r with reading := .skipping n }

/-- A token in place of an array's next item. -/
def readItem (r : Reader) (fields : List Field) (t : Json.Token) : Except ReadError Reader :=
  match fields with
  | [] => .error .malformed
  | f :: fields => r.accept f t (.afterItem fields)

def step (r : Reader) (t : Json.Token) : Except ReadError Reader :=
  match r.reading, t with
  | .start, .opening .curly => .ok { r with reading := .firstName }
  | .start, .opening .square => .ok { r with reading := .firstItem Field.positional }
  | .start, t => do throw (.wrongType (← Found.ofToken t) .options)
  | .firstName, .closing .curly => .ok { r with reading := .finished }
  | .firstName, t => r.readName t
  | .name, t => r.readName t
  | .colon none, .colon => .ok { r with reading := .skipping .start }
  | .colon (some f), .colon => .ok { r with reading := .value f }
  | .value f, t => r.accept f t .afterMember
  | .skipping n, t => r.skip n t
  | .afterMember, .comma => .ok { r with reading := .name }
  | .afterMember, .closing .curly => .ok { r with reading := .finished }
  | .firstItem _, .closing .square => .ok { r with reading := .finished }
  | .firstItem fields, t => r.readItem fields t
  | .item fields, t => r.readItem fields t
  | .afterItem fields, .comma => .ok { r with reading := .item fields }
  | .afterItem _, .closing .square => .ok { r with reading := .finished }
  | _, _ => .error .malformed

def run (r : Reader) (tokens : List Json.Token) : Except ReadError Reader :=
  tokens.foldlM step r

end Reader

/-- Reads options from tokens, which have to be one object or array and nothing more. -/
def ofTokens (tokens : List Json.Token) : Except ReadError Options := do
  let r ← Reader.run ⟨[], .start⟩ tokens
  match r.reading with
  | .finished => return ofSettings r.settings
  | _ => throw .malformed

/-- Reads options from a JSON text; fields that it does not give have their defaults. -/
def ofText (text : String) : Except ReadError Options :=
  ofTokens (Json.Token.scan text.toList)

/-! ### Options as they are given -/

/-- Options come as a value, as a text, or not at all. -/
inductive Source
  | absent
  | value (v : Json.Value)
  | text (s : String)

def Source.read : Source → Except ReadError (Option Options)
  | absent => .ok none
  | value v => (ofValue v).map some
  | text s => (ofText s).map some

end SaveAs.Options
