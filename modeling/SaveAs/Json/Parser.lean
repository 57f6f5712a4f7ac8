import SaveAs.Json.Token
import SaveAs.Json.Value

/-!
# Values from text

A pushdown machine takes one token at a time. A frame is an array or an object whose end has not come
yet, with what it holds so far in reverse; the machine stands between two tokens at a place where a
value, a name, a colon, or a comma or end may come. `Value.parse` is defined by recursion on the
tokens, so it needs no measure.
-/

namespace SaveAs.Json

/-- An unfinished array, or an unfinished object with the name whose value is under way. -/
inductive Frame
  | items (done : List Value)
  | members (done : List (String × Value)) (name : String)

inductive Place
  | value
  | firstItem
  | firstName
  | name (done : List (String × Value))
  | colon (done : List (String × Value)) (name : String)
  | afterItem (done : List Value)
  | afterMember (done : List (String × Value))
  | finished (v : Value)

/-- The machine between two tokens: the frames around it, innermost first, and its place. -/
structure Machine where
  frames : List Frame
  place : Place

namespace Machine

/-- A finished value goes into the innermost frame. -/
def deliver (v : Value) : List Frame → Machine
  | [] => ⟨[], .finished v⟩
  | .items done :: frames => ⟨frames, .afterItem (v :: done)⟩
  | .members done name :: frames => ⟨frames, .afterMember ((name, v) :: done)⟩

@[simp] theorem deliver_items (v : Value) (done : List Value) (frames : List Frame) :
    deliver v (.items done :: frames) = ⟨frames, .afterItem (v :: done)⟩ := rfl

@[simp] theorem deliver_members (v : Value) (done : List (String × Value)) (name : String)
    (frames : List Frame) :
    deliver v (.members done name :: frames) = ⟨frames, .afterMember ((name, v) :: done)⟩ := rfl

def startValue (frames : List Frame) : Token → Option Machine
  | .null => some (deliver .null frames)
  | .boolean b => some (deliver (.boolean b) frames)
  | .number l => l.value.map fun n => deliver (.number n) frames
  | .string pieces => (Piece.join pieces).map fun cs => deliver (.string (String.ofList cs)) frames
  | .opening .square => some ⟨frames, .firstItem⟩
  | .opening .curly => some ⟨frames, .firstName⟩
  | _ => none

def readName (done : List (String × Value)) (frames : List Frame) : Token → Option Machine
  | .string pieces => (Piece.join pieces).map fun cs => ⟨frames, .colon done (String.ofList cs)⟩
  | _ => none

def step (m : Machine) (t : Token) : Option Machine :=
  match m.place, t with
  | .value, t => startValue m.frames t
  | .firstItem, .closing .square => some (deliver (.array []) m.frames)
  | .firstItem, t => startValue (.items [] :: m.frames) t
  | .firstName, .closing .curly => some (deliver (.object []) m.frames)
  | .firstName, t => readName [] m.frames t
  | .name done, t => readName done m.frames t
  | .colon done name, .colon => some ⟨.members done name :: m.frames, .value⟩
  | .afterItem done, .comma => some ⟨.items done :: m.frames, .value⟩
  | .afterItem done, .closing .square => some (deliver (.array done.reverse) m.frames)
  | .afterMember done, .comma => some ⟨m.frames, .name done⟩
  | .afterMember done, .closing .curly => some (deliver (.object done.reverse) m.frames)
  | _, _ => none

def run (m : Machine) (tokens : List Token) : Option Machine :=
  tokens.foldlM step m

@[simp] theorem run_nil (m : Machine) : m.run [] = some m := rfl

theorem run_cons (m : Machine) (t : Token) (tokens : List Token) :
    m.run (t :: tokens) = (m.step t).bind (·.run tokens) := rfl

end Machine

namespace Value

/-- The value that a list of tokens writes, if it writes exactly one. -/
def ofTokens? (tokens : List Token) : Option Value :=
  match Machine.run ⟨[], .value⟩ tokens with
  | some ⟨_, .finished v⟩ => some v
  | _ => none

def parse (text : String) : Option Value :=
  ofTokens? (Token.scan text.toList)

end Value

end SaveAs.Json
