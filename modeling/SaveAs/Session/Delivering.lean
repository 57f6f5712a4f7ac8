import SaveAs.Session.Basic

/-!
# Sessions: resolving, saving, delivering

The parts of a delivery as a session has them. Each touches its own part of the state: resolving the
table of one trigger, naming a generator, saving a recording document or the file tree.
-/

namespace SaveAs

/-- Resolves a handle; a table forgets the payload that it gives. -/
def Resolver.resolve (handle : String) : Action Session.Failure Session.Event Resolver String
  | .inline => ⟨.ok handle, [], .inline⟩
  | .failing text => ⟨.error (.unresolved text), [], .failing text⟩
  | .table payloads =>
    match payloads.get? handle with
    | some payload => ⟨.ok payload, [.consume handle], .table (payloads.erase handle)⟩
    | none => ⟨.error (.noSuchHandle handle), [.consume handle], .table payloads⟩

namespace Session

def State.setResolver (s : State) (i : Nat) (r : Resolver) : State :=
  { s with triggers := s.triggers.modify i fun t => { t with resolver := r } }

def State.resolver (s : State) (i : Nat) : Resolver :=
  (s.triggers[i]?.map (·.resolver)).getD .inline

def resolveWith (i : Nat) (handle : String) : Act String :=
  (Resolver.resolve handle).focus (·.resolver i) (fun r s => s.setResolver i r) id

def saveInDocument (i : Nat) (d : Download) : Act Unit :=
  ((Recorder.document.save d).mapError Failure.document).focus (fun s => s.documents.getD i {})
    (fun r s => { s with documents := s.documents.set i r }) .document

def saveToDirectory (dir : Path) (d : Download) : Act Unit := do
  let bytes ← .ofExcept ((Base64.decode d.payload).mapError (.undecodable d.filename))
  fun s => match s.files.write s.home (dir.join d.filename) bytes with
    | .ok files => ⟨.ok (), [], { s with files := files }⟩
    | .error r => ⟨.error (.unwritable (dir.join d.filename) r), [], s⟩

def saveWith (saver : Saver) (d : Download) : Act Unit :=
  match saver with
  | .record => .emit (.save d)
  | .failing text => .fail (.unsaved text)
  | .anchor i => saveInDocument i d
  | .directory dir => saveToDirectory dir d

/-- Whose words a file name is drawn from. -/
inductive Source
  | generator
  | ambient

def drawName (source : Source) (o : Options) : Act String :=
  match source with
  | .generator => .update fun s =>
    let (name, g) := o.fileName s.generator
    (name, { s with generator := g })
  | .ambient => .update fun s =>
    let (name, g) := o.fileName s.ambient
    (name, { s with ambient := g })

/-- Delivers what `resolve` gives. -/
def deliver (resolve : Act String) (saver : Saver) (o : Options) (source : Source) : Act Unit :=
  Delivery.run
    { checkpoint := fun c => .emit (.log c)
      resolve := resolve
      drawName := drawName source o
      save := saveWith saver }
    o.mimeType

def fire (i : Nat) (t : Trigger) (handle : String) (source : Source) : Act Unit :=
  deliver (resolveWith i handle) t.saver t.options source

def saveBytes (bytes : List UInt8) (saver : Saver) (o : Options) : Act Unit :=
  deliver (pure (Base64.encode bytes)) saver o .ambient

end Session

end SaveAs
