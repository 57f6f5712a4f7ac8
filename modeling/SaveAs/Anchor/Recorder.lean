import SaveAs.Delivery

/-!
# A document that records

Elements are numbered from zero in the order of their creation. Each operation that succeeds is an
event; operations can be told to fail, and then they change nothing.
-/

namespace SaveAs

structure RecorderFaults where
  create : Option String := none
  href : Option String := none
  download : Option String := none
  hide : Option String := none
  append : Option String := none
  remove : Option String := none
  deriving Repr

/-- A recording document: how many elements it made, and the body's in their order. -/
structure Recorder where
  faults : RecorderFaults := {}
  created : Nat := 0
  body : List Nat := []
  deriving Repr

namespace Recorder

/-- An operation that took place; the body is the one after it. -/
inductive Event
  | create (id : Nat)
  | attribute (id : Nat) (name value : String)
  | hide (id : Nat)
  | append (id : Nat) (body : List Nat)
  | click (id : Nat) (body : List Nat)
  | remove (id : Nat) (body : List Nat)
  deriving DecidableEq, Repr

/-- An operation that fails with its text, if there is one, and else takes place. -/
private def attempt {α : Type} (fault : Recorder → Option String)
    (effect : Recorder → α × Event × Recorder) : Action String Event Recorder α := fun r =>
  match fault r with
  | some text => ⟨.error text, [], r⟩
  | none =>
    let (a, event, r') := effect r
    ⟨.ok a, [event], r'⟩

private def attributeFault (name : String) (r : Recorder) : Option String :=
  if name = "href" then r.faults.href
  else if name = "download" then r.faults.download
  else none

def document : Document String Event Recorder Nat where
  create := attempt (·.faults.create) fun r =>
    (r.created, .create r.created, { r with created := r.created + 1 })
  setAttribute id name value := attempt (attributeFault name) fun r =>
    ((), .attribute id name value, r)
  hide id := attempt (·.faults.hide) fun r => ((), .hide id, r)
  append id := attempt (·.faults.append) fun r =>
    ((), .append id (r.body ++ [id]), { r with body := r.body ++ [id] })
  click id r := ([.click id r.body], r)
  remove id := attempt (·.faults.remove) fun r =>
    ((), .remove id (r.body.erase id), { r with body := r.body.erase id })

end Recorder

end SaveAs
