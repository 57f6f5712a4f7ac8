import SaveAs.Options.OfText
import SaveAs.Session.Delivering

/-!
# Sessions: steps

A session is a fold of `step` over its requests. Each request reads its options first; where they do
not read, the step answers that and does nothing else. Each reply has the events of its own step.
-/

namespace SaveAs.Session

inductive SaverPlan
  | record
  | failing (text : String)
  | anchor (faults : RecorderFaults)
  | directory (dir : String)

inductive Step
  | setOptions
  | getOptions
  | setGenerator (words : List UInt32)
  | countWords
  | defineSaver (name : String) (plan : SaverPlan)
  | save (saver : String) (d : Download)
  | buildTrigger (name saver : String) (resolver : Resolver)
  | fire (name handle : String)
  /-- Makes a namespace exist, and sets the text with which its definitions fail. -/
  | setNamespace (name : String) (rejection : Option String)
  | register (name saver : String) (resolver : Resolver)
  | call (name function handle : String)
  | saveBytes (saver : String) (bytes : List UInt8)
  | setHook (name : String) (hook : ClickHook)
  | fireHook (name : String)
  | makeDirectory (path : String)
  | writeFile (path : String) (bytes : List UInt8)
  | listFiles
  | unknown

structure Request where
  options : Options.Source
  step : Step

inductive Result
  | unread (e : Options.ReadError)
  | ended (outcome : Except Failure Unit)
  | registered (outcome : Except Failure Unit) (imports : List String)
  | options (o : Options)
  | count (n : Nat)
  | files (entries : List (List String × Entry))
  | missing
  | unknown

/-- The answer to a request. `naming` is there where file names were drawn from the ambient words: the
options that they were drawn for. -/
structure Reply where
  result : Result
  events : List Event := []
  naming : Option Options := none

def replyOf (x : Act Unit) (s : State) (naming : Option Options := none) : Reply × State :=
  let o := x s
  ({ result := .ended o.result, events := o.events, naming := naming }, o.world)

private def ok : Result := .ended (.ok ())

def defineSaver (s : State) (name : String) : SaverPlan → State
  | .record => { s with savers := s.savers.set name .record }
  | .failing text => { s with savers := s.savers.set name (.failing text) }
  | .directory dir => { s with savers := s.savers.set name (.directory (Path.home.join dir)) }
  | .anchor faults =>
    { s with
      savers := s.savers.set name (.anchor s.documents.length)
      documents := s.documents ++ [{ faults := faults }] }

def setOptions (o : Options) : Act Unit := do
  .ofExcept (o.validate.mapError .invalid)
  .modify fun s => { s with options := o }

/-- Defines a function of a namespace: a new trigger, under the import name. -/
def register (name : String) (t : Trigger) : Act Unit := fun s =>
  let space := (s.namespaces.get? name).getD {}
  match space.rejection with
  | some text => ⟨.error (.rejected text), [], s⟩
  | none =>
    ⟨.ok (), [.define importName (space.functions.contains importName)],
      { s with
        triggers := s.triggers ++ [t]
        namespaces := s.namespaces.set name
          { space with functions := space.functions.set importName s.triggers.length } }⟩

/-- The names of a namespace's functions, sorted. -/
def imports (s : State) (name : String) : List String :=
  (((s.namespaces.get? name).map (·.functions.names)).getD []).mergeSort fun a b => !decide (b < a)

/-- The function of a namespace: a trigger with its number. -/
def function? (s : State) (name function : String) : Option (Nat × Trigger) := do
  let space ← s.namespaces.get? name
  let i ← space.functions.get? function
  let t ← s.triggers[i]?
  return (i, t)

def trigger? (s : State) (name : String) : Option (Nat × Trigger) := do
  let i ← s.triggerNames.get? name
  let t ← s.triggers[i]?
  return (i, t)

def ensureNamespace (s : State) (name : String) : State :=
  if s.namespaces.contains name then s else { s with namespaces := s.namespaces.set name {} }

/-- Does what a step says, with the options that came with it. -/
def perform (given : Option Options) (step : Step) (s : State) : Reply × State :=
  match step with
  | .setOptions => replyOf (setOptions (given.getD {})) s
  | .getOptions => ({ result := .options s.options }, s)
  | .setGenerator words => ({ result := ok }, { s with generator := .cycle words })
  | .countWords => ({ result := .count s.generator.drawn }, s)
  | .defineSaver name plan => ({ result := ok }, defineSaver s name plan)
  | .save saver d => replyOf (saveWith (s.saver saver) d) s
  | .buildTrigger name saver resolver =>
    ({ result := ok },
      { s with
        triggers := s.triggers ++ [⟨resolver, s.saver saver, given.getD s.options⟩]
        triggerNames := s.triggerNames.set name s.triggers.length })
  | .fire name handle =>
    match trigger? s name with
    | none => ({ result := .missing }, s)
    | some (i, t) => replyOf (fire i t handle .generator) s
  | .setNamespace name rejection =>
    let space := (s.namespaces.get? name).getD {}
    ({ result := ok },
      { s with namespaces := s.namespaces.set name { space with rejection := rejection } })
  | .register name saver resolver =>
    let s := ensureNamespace s name
    let o := register name ⟨resolver, s.saver saver, given.getD s.options⟩ s
    ({ result := .registered o.result (imports o.world name), events := o.events }, o.world)
  | .call name function handle =>
    match function? s name function with
    | none => ({ result := .missing }, s)
    | some (i, t) => replyOf (fire i t handle .ambient) s (some t.options)
  | .saveBytes saver bytes =>
    let o := given.getD s.options
    replyOf (saveBytes bytes (s.saver saver) o) s (some o)
  | .setHook name hook => ({ result := ok }, { s with hooks := s.hooks.set name hook })
  | .fireHook name =>
    match s.hooks.get? name with
    | none => ({ result := .missing }, s)
    | some hook => ({ result := ok, events := hook.fire.map .hook }, s)
  | .makeDirectory path =>
    ({ result := ok }, { s with files := s.files.makeDirectory s.home (Path.home.join path) })
  | .writeFile path bytes =>
    match s.files.write s.home (Path.home.join path) bytes with
    | .ok files => ({ result := ok }, { s with files := files })
    | .error _ => ({ result := ok }, s)
  | .listFiles => ({ result := .files (s.files.below s.home) }, s)
  | .unknown => ({ result := .unknown }, s)

def step (s : State) (r : Request) : Reply × State :=
  match r.options.read with
  | .error e => ({ result := .unread e }, s)
  | .ok given => perform given r.step s

def run (s : State) : List Request → List Reply × State
  | [] => ([], s)
  | r :: rest =>
    let (reply, s) := step s r
    let (replies, s) := run s rest
    (reply :: replies, s)

end SaveAs.Session
