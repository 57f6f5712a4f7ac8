import SaveAs.Options.Basic
import SaveAs.Page.Literal
import SaveAs.Table

/-!
# Objects of a page

Objects have an identity: a value refers to an object by its number in the heap, and two values with
one number share it. Objects are only added and changed one at a time, which is what the laws at the
end say.
-/

namespace SaveAs.Page

inductive Value
  | undefined
  | null
  | boolean (b : Bool)
  | number (x : Binary64)
  | string (s : String)
  | object (ref : Nat)
  deriving DecidableEq, Repr

/-- What a function does when it is called. -/
inductive Function
  | inert
  /-- Registers the download import. -/
  | register
  /-- Delivers the payload of its argument, with the options of its registration. -/
  | deliver (o : Options)
  /-- Reports its argument, and fails if it has a text for that. -/
  | probe (failure : Option String)
  deriving DecidableEq, Repr

inductive Kind
  | plain
  | array
  | function (f : Function)
  /-- An error, whose name and message are properties. -/
  | error
  deriving DecidableEq, Repr

structure Object where
  kind : Kind
  properties : Table Value := ∅
  /-- Writes to a frozen object are ignored. -/
  frozen : Bool := false
  /-- Without a prototype, and so not taken for an object. -/
  bare : Bool := false
  getThrows : Option Literal := none
  setThrows : Option Literal := none

/-- The objects of a page, by number. -/
structure Heap where
  objects : List Object := []

namespace Heap

def get? (h : Heap) (ref : Nat) : Option Object :=
  h.objects[ref]?

def add (h : Heap) (o : Object) : Value × Heap :=
  (.object h.objects.length, ⟨h.objects ++ [o]⟩)

def replace (h : Heap) (ref : Nat) (o : Object) : Heap :=
  ⟨h.objects.set ref o⟩

/-- Reads a property; one that is not there is undefined. Anything but an object throws. -/
def read (h : Heap) (target : Value) (name : String) : Except Literal Value :=
  match target with
  | .object ref =>
    match h.get? ref with
    | none => .ok .undefined
    | some o =>
      match o.getThrows with
      | some v => .error v
      | none => .ok ((o.properties.get? name).getD .undefined)
  | _ => .error (.typeError "Reflect.get called on non-object")

/-- Writes a property; a frozen object stays as it is. Anything but an object throws. -/
def write (h : Heap) (target : Value) (name : String) (v : Value) : Except Literal Heap :=
  match target with
  | .object ref =>
    match h.get? ref with
    | none => .ok h
    | some o =>
      match o.setThrows with
      | some thrown => .error thrown
      | none =>
        if o.frozen then .ok h
        else .ok (h.replace ref { o with properties := o.properties.set name v })
  | _ => .error (.typeError "Reflect.set called on non-object")

/-- A property as it is stored, whether or not reads of it throw. -/
def property? (h : Heap) (target : Value) (name : String) : Option Value :=
  match target with
  | .object ref => (h.get? ref).bind (·.properties.get? name)
  | _ => none

def isObject (h : Heap) : Value → Bool
  | .object ref => ((h.get? ref).map fun o => !o.bare).getD false
  | _ => false

def function? (h : Heap) : Value → Option Function
  | .object ref =>
    match h.get? ref with
    | some { kind := .function f, .. } => some f
    | _ => none
  | _ => none

mutual

def place (h : Heap) : Literal → Value × Heap
  | .undefined => (.undefined, h)
  | .null => (.null, h)
  | .boolean b => (.boolean b, h)
  | .number x => (.number x, h)
  | .string s => (.string s, h)
  | .array items =>
    let (properties, h) := placeItems h 0 items
    h.add { kind := .array, properties := .ofList properties }
  | .object properties frozen bare getThrows setThrows =>
    let (properties, h) := placeProperties h properties
    h.add { kind := .plain, properties := .ofList properties, frozen, bare, getThrows, setThrows }
  | .function => h.add { kind := .function .inert }
  | .error name message =>
    let (name, h) := place h name
    let (message, h) := place h message
    h.add { kind := .error, properties := .ofList [("name", name), ("message", message)] }

def placeItems (h : Heap) (i : Nat) : List Literal → List (String × Value) × Heap
  | [] => ([], h)
  | v :: rest =>
    let (value, h) := place h v
    let (values, h) := placeItems h (i + 1) rest
    ((Decimal.text i, value) :: values, h)

def placeProperties (h : Heap) : List (String × Literal) → List (String × Value) × Heap
  | [] => ([], h)
  | (name, v) :: rest =>
    let (value, h) := place h v
    let (values, h) := placeProperties h rest
    ((name, value) :: values, h)

end

/-- A value as a literal, down to a depth. -/
def literalTo (h : Heap) : Nat → Value → Literal
  | _, .undefined => .undefined
  | _, .null => .null
  | _, .boolean b => .boolean b
  | _, .number x => .number x
  | _, .string s => .string s
  | 0, .object _ => .undefined
  | depth + 1, .object ref =>
    match h.get? ref with
    | none => .undefined
    | some o =>
      match o.kind with
      | .plain => .plain (o.properties.entries.map fun e => (e.1, literalTo h depth e.2))
      | .array => .array (o.properties.entries.map fun e => literalTo h depth e.2)
      | .function _ => .function
      | .error =>
        let shown (name : String) := ((o.properties.get? name).map (literalTo h depth)).getD .undefined
        .error (shown "name") (shown "message")

/-- A value as a literal. As many levels as there are objects suffice for all but a circle. -/
def literal (h : Heap) (v : Value) : Literal :=
  h.literalTo h.objects.length v

/-! ### What changes and what stays -/

theorem get?_add (h : Heap) (o : Object) (ref : Nat) :
    (h.add o).2.get? ref = if ref = h.objects.length then some o else h.get? ref := by
  simp only [add, get?, List.getElem?_append]
  by_cases hlt : ref < h.objects.length
  · simp [hlt, Nat.ne_of_lt hlt]
  · rw [if_neg hlt]
    by_cases heq : ref = h.objects.length
    · simp [heq]
    · have hgt : h.objects.length < ref := by omega
      rw [if_neg heq, List.getElem?_eq_none (by simp; omega), List.getElem?_eq_none (by omega)]

theorem get?_replace_of_ne (h : Heap) {ref other : Nat} (o : Object) (hne : other ≠ ref) :
    (h.replace ref o).get? other = h.get? other := by
  simp [replace, get?, hne.symm]

end Heap

end SaveAs.Page
