import SaveAs.Binary64.Text
import SaveAs.Json.Quoted
import SaveAs.Json.Value

/-!
# Values as text

The compact form: no blanks, members in the order they have. Which notation a binary64 number gets is
up to the caller.
-/

namespace SaveAs.Json

def Number.render (layout : Layout) : Number → String
  | .integer n => Decimal.intText n
  | .float x => x.render layout

namespace Value

variable (layout : Layout)

mutual

private def chars : Value → List Char → List Char
  | null, rest => 'n' :: 'u' :: 'l' :: 'l' :: rest
  | boolean true, rest => 't' :: 'r' :: 'u' :: 'e' :: rest
  | boolean false, rest => 'f' :: 'a' :: 'l' :: 's' :: 'e' :: rest
  | number n, rest => (n.render layout).toList ++ rest
  | string s, rest => quote s.toList ++ rest
  | array items, rest => '[' :: itemChars items (']' :: rest)
  | object members, rest => '\x7b' :: memberChars members ('\x7d' :: rest)

private def itemChars : List Value → List Char → List Char
  | [], rest => rest
  | [v], rest => chars v rest
  | v :: more, rest => chars v (',' :: itemChars more rest)

private def memberChars : List (String × Value) → List Char → List Char
  | [], rest => rest
  | [(name, v)], rest => quote name.toList ++ ':' :: chars v rest
  | (name, v) :: more, rest => quote name.toList ++ ':' :: chars v (',' :: memberChars more rest)

end

def render (v : Value) : String :=
  String.ofList (chars layout v [])

end Value

end SaveAs.Json
