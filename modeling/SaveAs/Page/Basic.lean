import SaveAs.Delivery
import SaveAs.FileName
import SaveAs.Page.Heap

/-!
# Pages: what they hold

A page has a document with a body, functions that the download module imports, and objects that it
hands over. What the page offers and where it throws are settings; the rest is state that the module
and the page change together.
-/

namespace SaveAs.Page

/-- What the page does after a click on one of its elements. -/
inductive ClickEffect
  | nothing
  /-- The element leaves the body. -/
  | detach
  | removeBody
  deriving DecidableEq, Repr

structure Settings where
  window : Bool := true
  document : Bool := true
  body : Bool := true
  /-- Whether new elements are HTML elements. -/
  htmlElements : Bool := true
  /-- Whether the page has the function that takes a plugin. -/
  takesPlugins : Bool := true
  /-- Whether the page has the function that consumes a handle. -/
  consumesHandles : Bool := true
  onClick : ClickEffect := .nothing
  /-- What the operations throw that do not succeed. -/
  faults : Table Literal := ∅

inductive Failure
  | noWindow
  | noDocument
  | noBody
  | anchorNotCreated (thrown : Literal)
  | anchorNotHtml
  | attributeNotSet (name : String) (thrown : Literal)
  | anchorNotHidden (thrown : Literal)
  | anchorNotAppended (thrown : Literal)
  | anchorNotRemoved (thrown : Literal)
  | handleNotConsumed (thrown : Literal)
  | payloadNotText
  | envNotRead (thrown : Literal)
  | envNotCreated (thrown : Literal)
  | envNotObject
  | notDefined (name : String) (thrown : Literal)
  | unreadable (message : String)
  | invalid (f : Options.Fault)
  /-- The failure of a function that was defined to fail. -/
  | probe (text : String)
  /-- An exception of the page that nobody catches. -/
  | exception (thrown : Literal)

inductive Line
  | pluginAdded
  | checkpoint (c : Checkpoint)
  deriving DecidableEq, Repr

inductive Event
  | createElement (id : Nat)
  | setAttribute (id : Nat) (name value : String)
  | setProperty (id : Nat) (name value : String)
  | appendChild (id : Nat) (children : List Nat)
  | click (id : Nat)
  | removeChild (id : Nat) (children : List Nat)
  | setHandler
  | handled
  | hook (name : String)
  | addPlugin (properties : List String)
  | consume (handle : Literal)
  | console (line : Line)
  | called (argument : Literal)

structure State where
  settings : Settings := {}
  heap : Heap := {}
  /-- What the handles refer to. -/
  handles : Table Value := ∅
  /-- Import objects, by the names that the steps give them. -/
  imports : Table Value := ∅
  plugins : List Value := []
  elements : Nat := 0
  children : List Nat := []
  handler : Option ClickHook := none
  logging : Bool := false
  options : Options := {}
  /-- The words that file names are drawn from. -/
  ambient : Generator := .cycle [0]

abbrev Act (α : Type) : Type := Action Failure Event State α

/-- Fails with the first of some named faults that is set, and else takes place. -/
def attempt {α : Type} (names : List String) (wrap : Literal → Failure) (x : Act α) : Act α :=
  fun s =>
    match names.findSome? s.settings.faults.get? with
    | some thrown => ⟨.error (wrap thrown), [], s⟩
    | none => x s

/-- The document, which is there if the window and it are. -/
def document : Act Unit := fun s =>
  if !s.settings.window then ⟨.error .noWindow, [], s⟩
  else if !s.settings.document then ⟨.error .noDocument, [], s⟩
  else ⟨.ok (), [], s⟩

/-- Logs a line, once logging is on. -/
def log (line : Line) : Act Unit := fun s =>
  ⟨.ok (), if s.logging then [.console line] else [], s⟩

def addObject (o : Object) : Act Value :=
  .update fun s =>
    let (v, heap) := s.heap.add o
    (v, { s with heap := heap })

def readProperty (target : Value) (name : String) (wrap : Literal → Failure) : Act Value := fun s =>
  match s.heap.read target name with
  | .ok v => ⟨.ok v, [], s⟩
  | .error thrown => ⟨.error (wrap thrown), [], s⟩

def writeProperty (target : Value) (name : String) (v : Value) (wrap : Literal → Failure) :
    Act Unit := fun s =>
  match s.heap.write target name v with
  | .ok heap => ⟨.ok (), [], { s with heap := heap }⟩
  | .error thrown => ⟨.error (wrap thrown), [], s⟩

end SaveAs.Page
