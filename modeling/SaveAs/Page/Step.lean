import SaveAs.Page.Configuring
import SaveAs.Page.Imports

/-!
# Pages: steps

What happens on a page is a fold of `step` over its steps, each with a reply that has its own events.
-/

namespace SaveAs.Page

inductive Setting
  | window (there : Bool)
  | document (there : Bool)
  | body (there : Bool)
  | htmlElements (b : Bool)
  | takesPlugins (b : Bool)
  | consumesHandles (b : Bool)
  | onClick (e : ClickEffect)
  | faults (faults : Table Literal)

def Setting.apply (s : Settings) : Setting → Settings
  | window b => { s with window := b }
  | document b => { s with document := b }
  | body b => { s with body := b }
  | htmlElements b => { s with htmlElements := b }
  | takesPlugins b => { s with takesPlugins := b }
  | consumesHandles b => { s with consumesHandles := b }
  | onClick e => { s with onClick := e }
  | faults f => { s with faults := f }

inductive Step
  | start
  | configure (options : Literal)
  | saveBytes (bytes : List UInt8)
  | getOptions
  | change (settings : List Setting)
  | addHandle (name : String) (value : Literal)
  | nameImport (name : String) (value : Literal)
  | inspect (name : String)
  /-- Calls the registering function of a plugin, by number, with an import object. -/
  | callPlugin (plugin : Nat) (name : String)
  | register (name : String)
  | call (name function : String) (argument : Literal)
  | define (name function : String) (failure : Option String)
  | resolve (handle : Literal)
  | document
  | descriptor
  | setHook (hook : ClickHook)
  | click
  | unknown

inductive Result
  /-- How an operation of the module ended. -/
  | ended (outcome : Except Failure Unit)
  /-- What an exported function did, a failure being thrown. -/
  | exported (outcome : Except Failure Unit)
  | returned (outcome : Except Failure Literal)
  | resolved (outcome : Except Failure String)
  | value (v : Literal)
  | options (o : Options)
  | missing
  | notFunction
  | unknown

/-- The answer to a step. `naming` is there where a file name may have been drawn: the options that it
was drawn for. -/
structure Reply where
  result : Result
  events : List Event := []
  naming : Option Options := none

def replyOf {α : Type} (result : Except Failure α → Result) (x : Act α) (s : State)
    (naming : Option Options := none) : Reply × State :=
  let o := x s
  ({ result := result o.result, events := o.events, naming := naming }, o.world)

/-- A value as it is shown, once an action has given it. -/
def shown (x : Act Value) : Act Literal := do
  let v ← x
  .read (·.heap.literal v)

def place (v : Literal) : Act Value :=
  .update fun s =>
    let (value, heap) := s.heap.place v
    (value, { s with heap := heap })

def State.importObject (s : State) (name : String) : Value :=
  (s.imports.get? name).getD .undefined

/-- A function in the `env` of an import object. -/
def State.importedFunction? (s : State) (name function : String) : Option Function := do
  let env ← s.heap.property? (s.importObject name) "env"
  let v ← s.heap.property? env function
  s.heap.function? v

/-- The registering function of a plugin. -/
def State.pluginFunction? (s : State) (plugin : Nat) : Option Function := do
  let v ← s.heap.property? (← s.plugins[plugin]?) "register_plugin"
  s.heap.function? v

/-- The options that a function draws file names for. -/
def Function.naming : Function → Option Options
  | deliver o => some o
  | _ => none

private def ok : Result := .ended (.ok ())

def step (s : State) : Step → Reply × State
  | .start => replyOf .exported start s
  | .configure v => replyOf .exported (configure v) s
  | .saveBytes bytes => replyOf .exported (saveBytes bytes) s (some s.options)
  | .getOptions => ({ result := .options s.options }, s)
  | .change settings =>
    ({ result := ok }, { s with settings := settings.foldl Setting.apply s.settings })
  | .addHandle name v =>
    replyOf .ended (do
      let value ← place v
      .modify fun s => { s with handles := s.handles.set name value }) s
  | .nameImport name v =>
    replyOf .ended (do
      let value ← place v
      .modify fun s => { s with imports := s.imports.set name value }) s
  | .inspect name => ({ result := .value (s.heap.literal (s.importObject name)) }, s)
  | .callPlugin plugin name =>
    match s.pluginFunction? plugin with
    | none => ({ result := .missing }, s)
    | some f => replyOf .returned (shown (callFunction f (s.importObject name))) s
  | .register name => replyOf .ended (registerImport (s.importObject name)) s
  | .call name function argument =>
    match s.importedFunction? name function with
    | none => ({ result := .notFunction }, s)
    | some f => replyOf .returned (shown (do callFunction f (← place argument))) s f.naming
  | .define name function failure =>
    replyOf .ended (do define (← openEnv (s.importObject name)) function (.probe failure)) s
  | .resolve handle => replyOf .resolved (do resolve (← place handle)) s
  | .document => replyOf .ended document s
  | .descriptor => replyOf .returned (shown descriptor) s
  | .setHook hook => replyOf .ended (installHook hook) s
  | .click => ({ result := ok, events := runHandler s }, s)
  | .unknown => ({ result := .unknown }, s)

def run (s : State) : List Step → List Reply × State
  | [] => ([], s)
  | x :: rest =>
    let (reply, s) := step s x
    let (replies, s) := run s rest
    (reply :: replies, s)

end SaveAs.Page
