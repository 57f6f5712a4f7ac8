import SaveAs.FileTree.Basic

/-!
# Paths

A path is a text that starts at the root or at a home directory. It is resolved name by name against a
tree, and a write through it either puts one regular file at the location that it resolves to, or is
refused and changes nothing.
-/

namespace SaveAs

inductive Base
  | root
  | home
  deriving DecidableEq, Repr

/-- A path as it is written; after `home` the text is empty or starts with a slash. -/
structure Path where
  base : Base
  text : String
  deriving DecidableEq, Repr

namespace Path

def home : Path := ⟨.home, ""⟩

/-- A text that starts with a slash is a path of its own; any other is appended after a slash, which
is not doubled. Nothing is simplified. -/
def join (p : Path) (s : String) : Path :=
  if s.toList.head? = some '/' then ⟨.root, s⟩
  else if p.text.toList.getLast? = some '/' then { p with text := p.text ++ s }
  else { p with text := p.text ++ "/" ++ s }

def display (p : Path) : String :=
  match p.base with
  | .root => p.text
  | .home => "<root>" ++ p.text

/-- The parts of a text between its slashes. -/
def segments : List Char → List (List Char)
  | [] => [[]]
  | c :: cs =>
    if c = '/' then [] :: segments cs
    else match segments cs with
      | [] => [[c]]
      | s :: rest => (c :: s) :: rest

/-- The names in a path; slashes in a row count as one. -/
def names (p : Path) : List String :=
  ((segments p.text.toList).filter (· ≠ [])).map String.ofList

def endsInSlash (p : Path) : Bool :=
  p.text.toList.getLast? == some '/'

def start (p : Path) (home : Location) : Location :=
  match p.base with
  | .root => []
  | .home => home

/-- The bytes of a path, written out from the root. -/
def size (p : Path) (home : Location) : Nat :=
  (p.start home).foldl (fun n name => n + name.utf8ByteSize + 1) p.text.utf8ByteSize

/-- No name holds a NUL, so a path with one stands for nothing. -/
def hasNul (p : Path) : Bool :=
  p.text.toList.contains '\x00'

end Path

inductive Refusal
  | notFound
  | isDirectory
  | notDirectory
  | nameTooLong
  | nulByte
  deriving DecidableEq, Repr

def Refusal.message : Refusal → String
  | notFound => "No such file or directory (os error 2)"
  | isDirectory => "Is a directory (os error 21)"
  | notDirectory => "Not a directory (os error 20)"
  | nameTooLong => "File name too long (os error 36)"
  | nulByte => "file name contained an unexpected NUL byte"

namespace FileTree

/-- Names of more bytes than this are refused. -/
def longestName : Nat := 255

/-- Paths of more bytes than this are refused as a whole, wherever they lead. -/
def longestPath : Nat := 4095

def enter (t : FileTree) (dir : Location) (name : String) : Except Refusal Location :=
  if name = "." then .ok dir
  else if name = ".." then .ok dir.tail
  else if longestName < name.utf8ByteSize then .error .nameTooLong
  else match t.get? (name :: dir) with
    | none => .error .notFound
    | some (.file _) => .error .notDirectory
    | some .directory => .ok (name :: dir)

def fileAt (t : FileTree) (dir : Location) (name : String) : Except Refusal Location :=
  if name = "." ∨ name = ".." then .error .isDirectory
  else if longestName < name.utf8ByteSize then .error .nameTooLong
  else match t.get? (name :: dir) with
    | some .directory => .error .isDirectory
    | _ => .ok (name :: dir)

/-- The location of the file that a path stands for; all directories on the way have to be there. -/
def resolve (t : FileTree) (home : Location) (p : Path) : Except Refusal Location := do
  if p.hasNul then throw .nulByte
  if longestPath < p.size home then throw .nameTooLong
  match p.names.getLast? with
  | none => throw .isDirectory
  | some name =>
    let dir ← p.names.dropLast.foldlM t.enter (p.start home)
    if p.endsInSlash then throw .isDirectory
    t.fileAt dir name

/-- Writes a regular file, over an earlier one if there is one. -/
def write (t : FileTree) (home : Location) (p : Path) (bytes : List UInt8) :
    Except Refusal FileTree :=
  (t.resolve home p).map fun l => t.put l (.file bytes)

/-- Makes the directories that some names lead through; the first that cannot be made ends it. -/
def makeDirectories (t : FileTree) (dir : Location) : List String → FileTree
  | [] => t
  | name :: rest =>
    if name = "." then t.makeDirectories dir rest
    else if name = ".." then t.makeDirectories dir.tail rest
    else if longestName < name.utf8ByteSize then t
    else match t.get? (name :: dir) with
      | none => (t.put (name :: dir) .directory).makeDirectories (name :: dir) rest
      | some .directory => t.makeDirectories (name :: dir) rest
      | some (.file _) => t

/-- Makes the directory of a path, with those on the way. -/
def makeDirectory (t : FileTree) (home : Location) (p : Path) : FileTree :=
  if p.hasNul ∨ longestPath < p.size home then t
  else t.makeDirectories (p.start home) p.names

end FileTree

end SaveAs
