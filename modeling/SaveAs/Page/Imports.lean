import SaveAs.Base64.Encoding
import SaveAs.Page.Elements

/-!
# Functions that a page imports

A page hands over an import object; the download function becomes a property of its `env`. Calling it
consumes the handle that it gets and delivers the payload through an anchor.
-/

namespace SaveAs.Page

/-- Takes what a handle refers to out of the page. -/
def consumeHandle (handle : Value) : Act Value := do
  if !(← .read (·.settings.consumesHandles)) then
    .fail (.handleNotConsumed (.exception "ReferenceError" "consume_js_object is not defined"))
  attempt ["consume_js_object"] .handleNotConsumed fun s =>
    let h := s.heap.literal handle
    ⟨.ok ((s.handles.get? h.key).getD .undefined), [.consume h],
      { s with handles := s.handles.erase h.key }⟩

def resolve (handle : Value) : Act String := do
  match ← consumeHandle handle with
  | .string payload => pure payload
  | _ => .fail .payloadNotText

def drawName (o : Options) : Act String :=
  .update fun s =>
    let (name, g) := o.fileName s.ambient
    (name, { s with ambient := g })

/-- Delivers what `payload` gives, through an anchor. -/
def deliver (payload : Act String) (o : Options) : Act Unit :=
  Delivery.run
    { checkpoint := fun c => log (.checkpoint c)
      resolve := payload
      drawName := drawName o
      save := anchors.save }
    o.mimeType

/-- The `env` of an import object. One that is undefined or null is made. -/
def openEnv (target : Value) : Act Value := do
  match ← readProperty target "env" .envNotRead with
  | .undefined | .null =>
    let env ← addObject { kind := .plain }
    writeProperty target "env" env .envNotCreated
    pure env
  | env => if (← .read (·.heap.isObject env)) then pure env else .fail .envNotObject

/-- Makes a function a property of an `env`. -/
def define (env : Value) (name : String) (f : Function) : Act Unit := do
  let v ← addObject { kind := .function f }
  writeProperty env name v (.notDefined name)

/-- Registers the download function in an import object, with the options stored now. -/
def registerImport (target : Value) : Act Unit := do
  let env ← openEnv target
  document
  define env importName (.deliver (← .read (·.options)))

def callFunction (f : Function) (argument : Value) : Act Value := do
  match f with
  | .inert => pure ()
  | .register => registerImport argument
  | .deliver o => deliver (resolve argument) o
  | .probe failure =>
    .emit (.called (← .read (·.heap.literal argument)))
    match failure with
    | some text => .fail (.probe text)
    | none => pure ()
  pure .undefined

/-- Saves bytes through an anchor, with the options stored now. -/
def saveBytes (bytes : List UInt8) : Act Unit := do
  document
  deliver (pure (Base64.encode bytes)) (← .read (·.options))

/-- The object that a page gets as a plugin. -/
def descriptor : Act Value := do
  let register ← addObject { kind := .function .register }
  addObject { kind := .plain, properties := .ofList [("register_plugin", register)] }

/-- Hands a plugin to the page, whose exceptions pass through. -/
def addPlugin (plugin : Value) : Act Unit := do
  if !(← .read (·.settings.takesPlugins)) then
    .fail (.exception (.exception "ReferenceError" "miniquad_add_plugin is not defined"))
  attempt ["miniquad_add_plugin"] .exception fun s =>
    let names := match plugin with
      | .object ref => ((s.heap.get? ref).map (·.properties.names)).getD []
      | _ => []
    ⟨.ok (), [.addPlugin names], { s with plugins := s.plugins ++ [plugin] }⟩

def installHook (hook : ClickHook) : Act Unit := do
  document
  .emit .setHandler
  .modify fun s => { s with handler := some hook }

/-- Starts the module: logging goes on, the click handler is set, and the plugin is added. -/
def start : Act Unit := do
  .modify fun s => { s with logging := true }
  installHook .idle
  addPlugin (← descriptor)
  log .pluginAdded

end SaveAs.Page
