import SaveAs.Page.Step

/-!
# Pages: what is shown of a reply

A failure is thrown as an error with its message. Lines on the console have no white space at their end.
All file names of a page are drawn from the ambient words; they are masked in attributes and on the
console.
-/

namespace SaveAs

namespace Text

/-- `White_Space`: six controls, the space, and nineteen characters beyond ASCII. -/
def isBlank (c : Char) : Bool :=
  let n := c.toNat
  (9 ≤ n && n ≤ 13) || n == 0x20 || n == 0x85 || n == 0xA0 || n == 0x1680
    || (0x2000 ≤ n && n ≤ 0x200A) || n == 0x2028 || n == 0x2029 || n == 0x202F || n == 0x205F
    || n == 0x3000

def trimEnd (s : String) : String :=
  String.ofList (s.toList.reverse.dropWhile isBlank).reverse

end Text

namespace Page

def Failure.message : Failure → String
  | noWindow => "No window object"
  | noDocument => "No document object"
  | noBody => "Document has no body"
  | anchorNotCreated v => "Failed to create anchor: " ++ v.describe
  | anchorNotHtml => "Anchor is not an HtmlElement"
  | attributeNotSet name v => "Failed to set " ++ name ++ ": " ++ v.describe
  | anchorNotHidden v => "Failed to hide anchor: " ++ v.describe
  | anchorNotAppended v => "Failed to append anchor: " ++ v.describe
  | anchorNotRemoved v => "Failed to remove anchor: " ++ v.describe
  | handleNotConsumed v => "Failed to consume js object: " ++ v.describe
  | payloadNotText => "Payload is not a string"
  | envNotRead v => "Failed to read importObject.env: " ++ v.describe
  | envNotCreated v => "Failed to create importObject.env: " ++ v.describe
  | envNotObject => "importObject.env is not an object"
  | notDefined name v => "Failed to define " ++ name ++ ": " ++ v.describe
  | unreadable message => "Error: " ++ message
  | invalid f => f.message
  | probe text => text
  | exception v => v.describe

/-- What a failure is to the page: an error with its message, or the exception itself. -/
def Failure.thrown : Failure → Literal
  | exception v => v
  | f => .exception "Error" f.message

private def checkpointFields : Checkpoint → String
  | .requested => ""
  | .resolved filename bytes => " filename=" ++ filename ++ " bytes=" ++ Decimal.text bytes
  | .triggered filename => " filename=" ++ filename

def Line.text : Line → String
  | pluginAdded => "DEBUG png_download_plugin: png download plugin added"
  | checkpoint c =>
    Text.trimEnd (Checkpoint.level ++ " " ++ Checkpoint.target ++ ": " ++ c.message ++
      checkpointFields c)

def Event.mask (o : Options) : Event → Event
  | setAttribute id "download" value => setAttribute id "download" (o.mask value)
  | console (.checkpoint c) => console (.checkpoint (c.mask o))
  | e => e

def Reply.shown (r : Reply) : List Event :=
  match r.naming with
  | none => r.events
  | some o => r.events.map (·.mask o)

end Page

end SaveAs
