import SaveAs.Page.Basic

/-!
# Elements of a page

The document of a page as saving through an anchor needs it. Elements are numbered from one. A click
on an element of the body reaches the document's handler; after that the page may detach the element
or drop its body.
-/

namespace SaveAs.Page

def body : Act Unit := fun s =>
  if s.settings.body then ⟨.ok (), [], s⟩ else ⟨.error .noBody, [], s⟩

def createAnchor : Act Nat := do
  let id ← attempt ["createElement"] .anchorNotCreated fun s =>
    let id := s.elements + 1
    ⟨.ok id, [.createElement id], { s with elements := id }⟩
  if ← .read (·.settings.htmlElements) then pure id else .fail .anchorNotHtml

def setAttribute (id : Nat) (name value : String) : Act Unit :=
  attempt ["setAttribute", "setAttribute:" ++ name] (.attributeNotSet name)
    (.emit (.setAttribute id name value))

def hide (id : Nat) : Act Unit :=
  attempt ["setProperty", "setProperty:display"] .anchorNotHidden
    (.emit (.setProperty id "display" "none"))

def append (id : Nat) : Act Unit := do
  body
  attempt ["appendChild"] .anchorNotAppended fun s =>
    let children := s.children ++ [id]
    ⟨.ok (), [.appendChild id children], { s with children := children }⟩

def runHandler (s : State) : List Event :=
  match s.handler with
  | none => []
  | some hook => .handled :: hook.fire.map .hook

def click (id : Nat) (s : State) : List Event × State :=
  let bubbled := if id ∈ s.children then runHandler s else []
  let after := match s.settings.onClick with
    | .nothing => s
    | .detach => { s with children := s.children.erase id }
    | .removeBody => { s with settings := { s.settings with body := false } }
  (.click id :: bubbled, after)

def remove (id : Nat) : Act Unit := do
  body
  attempt ["removeChild"] .anchorNotRemoved fun s =>
    if id ∈ s.children then
      let children := s.children.erase id
      ⟨.ok (), [.removeChild id children], { s with children := children }⟩
    else ⟨.error (.anchorNotRemoved (.exception "NotFoundError" "not a child of this node")), [], s⟩

def anchors : Document Failure Event State Nat :=
  { create := createAnchor, setAttribute, hide, append, click, remove }

end SaveAs.Page
