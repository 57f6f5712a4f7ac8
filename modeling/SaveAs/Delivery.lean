import SaveAs.Action
import SaveAs.FileName

/-!
# Deliveries

A download is a payload in base64 with its type and the name it is saved under. A delivery resolves the
payload, names it and hands it to a saver, and passes three checkpoints on the way. What each part does is
the caller's; the order is fixed here.

A saver can hand a download to the user through a document, which makes elements and can attach them to its
body: it clicks a hidden anchor element that carries the data URL and the file name, and is in the body only
for the click. Beside deliveries there are click hooks: a hook may carry a callback, here known by its name,
and firing one without does nothing.
-/

namespace SaveAs

structure Download where
  payload : String
  mimeType : String
  filename : String
  deriving DecidableEq, Repr

/-- The data URL of a download; the payload stands in it as it is. -/
def Download.href (d : Download) : String :=
  "data:" ++ d.mimeType ++ ";base64," ++ d.payload

/-- The name under which a page or a program imports a delivery. -/
def importName : String := "hi_from_wasm"

/-- The places of a delivery that are logged. -/
inductive Checkpoint
  | requested
  /-- The payload is there and has a name; its length counts bytes of UTF-8. -/
  | resolved (filename : String) (bytes : Nat)
  | triggered (filename : String)
  deriving DecidableEq, Repr

/-- The level and the target that checkpoints are logged with. -/
def Checkpoint.level : String := "DEBUG"

def Checkpoint.target : String := "png_download_plugin::download"

def Checkpoint.message : Checkpoint → String
  | requested => "download requested"
  | resolved _ _ => "payload resolved"
  | triggered _ => "download triggered"

def Checkpoint.mask (o : Options) : Checkpoint → Checkpoint
  | requested => requested
  | resolved filename bytes => resolved (o.mask filename) bytes
  | triggered filename => triggered (o.mask filename)

structure Delivery (ε ν σ : Type) where
  checkpoint : Checkpoint → Action ε ν σ Unit
  resolve : Action ε ν σ String
  drawName : Action ε ν σ String
  save : Download → Action ε ν σ Unit

/-- Delivers one payload. No name is drawn for a payload that does not resolve, and a failure of the
resolver or the saver is the failure of the delivery. -/
def Delivery.run {ε ν σ : Type} (d : Delivery ε ν σ) (mimeType : String) : Action ε ν σ Unit := do
  d.checkpoint .requested
  let payload ← d.resolve
  let filename ← d.drawName
  d.checkpoint (.resolved filename payload.utf8ByteSize)
  d.save ⟨payload, mimeType, filename⟩
  d.checkpoint (.triggered filename)

/-! ### Saving through an anchor -/

/-- What a document offers. Every operation but the click may fail, in any state and with any error. -/
structure Document (ε ν σ α : Type) where
  create : Action ε ν σ α
  setAttribute : α → String → String → Action ε ν σ Unit
  hide : α → Action ε ν σ Unit
  append : α → Action ε ν σ Unit
  click : α → σ → List ν × σ
  remove : α → Action ε ν σ Unit

/-- Saves a download. The first operation that fails ends it; an element that was appended is clicked
and then removed. -/
def Document.save {ε ν σ α : Type} (doc : Document ε ν σ α) (d : Download) :
    Action ε ν σ Unit := do
  let anchor ← doc.create
  doc.setAttribute anchor "href" d.href
  doc.setAttribute anchor "download" d.filename
  doc.hide anchor
  doc.append anchor
  Action.perform (doc.click anchor)
  doc.remove anchor

/-! ### Click hooks -/

inductive ClickHook
  | idle
  | calling (name : String)
  deriving DecidableEq, Repr

def ClickHook.fire : ClickHook → List String
  | idle => []
  | calling name => [name]

end SaveAs
