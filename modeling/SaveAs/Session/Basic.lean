import SaveAs.Anchor.Recorder
import SaveAs.Base64.Decoding
import SaveAs.Delivery
import SaveAs.FileName
import SaveAs.FileTree.Path
import SaveAs.Table

/-!
# Sessions: what they hold

A session keeps the stored options, savers, triggers, namespaces and hooks under their names, one word
generator, and a file tree. A trigger or a namespace's function is kept by number in the list of all
triggers built, so that a name given anew leaves the earlier ones as they are.
-/

namespace SaveAs

/-- Turns a handle into a payload. -/
inductive Resolver
  /-- The handle is the payload. -/
  | inline
  | failing (text : String)
  /-- Each payload is given once. -/
  | table (payloads : Table String)

/-- Hands a download to the user. -/
inductive Saver
  | record
  | failing (text : String)
  /-- Clicks an anchor in one of the session's recording documents. -/
  | anchor (document : Nat)
  | directory (path : Path)

/-- A resolver and a saver, with the options as they were when it was built. -/
structure Trigger where
  resolver : Resolver
  saver : Saver
  options : Options

/-- Functions that can be imported, by name: the numbers of their triggers. -/
structure Namespace where
  /-- The text with which every definition fails, if there is one. -/
  rejection : Option String := none
  functions : Table Nat := ∅

namespace Session

inductive Failure
  | invalid (f : Options.Fault)
  | unresolved (text : String)
  | noSuchHandle (handle : String)
  | unsaved (text : String)
  /-- An operation of a recording document failed. -/
  | document (text : String)
  | undecodable (filename : String) (d : Base64.Defect)
  | unwritable (p : Path) (r : Refusal)
  | rejected (text : String)
  deriving DecidableEq, Repr

inductive Event
  | log (c : Checkpoint)
  | consume (handle : String)
  /-- A recording saver got a download. -/
  | save (d : Download)
  | document (e : Recorder.Event)
  /-- A namespace accepted a function; `replaced` says whether it had one of that name. -/
  | define (name : String) (replaced : Bool)
  | hook (name : String)
  deriving DecidableEq, Repr

/-- The location of the session's directory. No path names it but through `home`, since a path with
such a byte is refused. -/
def homeLocation : Location := ["downloads\x00", "tmp"]

structure State where
  options : Options := {}
  generator : Generator := .cycle [0]
  /-- The words that calls and direct saves draw, which no step sets. -/
  ambient : Generator := .cycle [0]
  savers : Table Saver := ∅
  documents : List Recorder := []
  triggers : List Trigger := []
  triggerNames : Table Nat := ∅
  namespaces : Table Namespace := ∅
  hooks : Table ClickHook := ∅
  files : FileTree := ⟨[(["tmp"], .directory), (homeLocation, .directory)]⟩
  home : Location := homeLocation

abbrev Act (α : Type) : Type := Action Failure Event State α

/-- A saver by name; a name that is not defined is a recording saver. -/
def State.saver (s : State) (name : String) : Saver :=
  (s.savers.get? name).getD .record

end Session

end SaveAs
