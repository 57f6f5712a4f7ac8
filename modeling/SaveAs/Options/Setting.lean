import SaveAs.Binary64.Text
import SaveAs.Options.Basic
import SaveAs.Text.Quoted

/-!
# Settings

A setting gives one field of the options. `Field.accept` decides which values a field takes; both
readers of options, the one over values and the one over text, ask it, so they differ only in the
order in which they meet the fields.
-/

namespace SaveAs.Options

inductive Field
  | mimeType
  | stem
  | extension
  | maxSuffix
  deriving DecidableEq, Repr

namespace Field

def key : Field → String
  | mimeType => "mimeType"
  | stem => "filePrefix"
  | extension => "fileExtension"
  | maxSuffix => "maxSuffix"

def positional : List Field := [mimeType, stem, extension, maxSuffix]

def sorted : List Field := [extension, stem, maxSuffix, mimeType]

/-- The field of a name, if the name is known. -/
def ofKey? (name : String) : Option Field :=
  positional.find? (·.key = name)

theorem ofKey?_key (f : Field) : ofKey? f.key = some f := by
  cases f <;> decide

theorem ofKey?_eq_some_iff {name : String} {f : Field} : ofKey? name = some f ↔ name = f.key := by
  constructor
  · intro h
    have hkey : f.key = name := by simpa using List.find?_some h
    exact hkey.symm
  · rintro rfl
    exact ofKey?_key f

end Field

inductive Setting
  | mimeType (s : String)
  | stem (s : String)
  | extension (s : String)
  | maxSuffix (n : UInt32)
  deriving DecidableEq, Repr

namespace Setting

def field : Setting → Field
  | mimeType _ => .mimeType
  | stem _ => .stem
  | extension _ => .extension
  | maxSuffix _ => .maxSuffix

def apply (o : Options) : Setting → Options
  | mimeType s => { o with mimeType := s }
  | stem s => { o with stem := s }
  | extension s => { o with extension := s }
  | maxSuffix n => { o with maxSuffix := n }

end Setting

/-- The options that some settings make of the defaults. -/
def ofSettings (settings : List Setting) : Options :=
  settings.foldl Setting.apply {}

/-- What kind of value stands where a field or the options are read. -/
inductive Found
  | null
  | boolean (b : Bool)
  | integer (n : Int)
  | float (x : Binary64)
  | string (s : String)
  | sequence
  | map
  deriving DecidableEq, Repr

inductive Expected
  | options
  | string
  | number
  deriving DecidableEq, Repr

inductive ReadError
  | malformed
  | wrongType (found : Found) (expected : Expected)
  | outOfRange (n : Int)
  | duplicate (f : Field)
  | tooLong (length : Nat)
  deriving DecidableEq, Repr

def Field.expected : Field → Expected
  | maxSuffix => .number
  | _ => .string

/-- The setting that a value makes of a field: a text for three of them, and for the suffix bound an
integer of 32 bits. -/
def Field.accept : Field → Found → Except ReadError Setting
  | mimeType, .string s => .ok (.mimeType s)
  | stem, .string s => .ok (.stem s)
  | extension, .string s => .ok (.extension s)
  | maxSuffix, .integer n =>
    if 0 ≤ n ∧ n < UInt32.size then .ok (.maxSuffix (UInt32.ofNat n.toNat))
    else .error (.outOfRange n)
  | f, v => .error (.wrongType v f.expected)

theorem Field.field_of_accept {f : Field} {v : Found} {s : Setting} (h : f.accept v = .ok s) :
    s.field = f := by
  unfold Field.accept at h
  split at h
  · cases h; rfl
  · cases h; rfl
  · cases h; rfl
  · split at h <;> cases h; rfl
  · cases h

/-! ### Messages -/

def Found.describe : Found → String
  | null => "null"
  | boolean true => "boolean `true`"
  | boolean false => "boolean `false`"
  | integer n => "integer `" ++ Decimal.intText n ++ "`"
  | float x => "floating point `" ++ x.render .message ++ "`"
  | string s => "string " ++ Text.quote s
  | sequence => "sequence"
  | map => "map"

def Expected.describe : Expected → String
  | options => "struct DownloadOptions"
  | string => "a string"
  | number => "u32"

def wrongTypeMessage (found : String) (expected : Expected) : String :=
  "invalid type: " ++ found ++ ", expected " ++ expected.describe

def outOfRangeMessage (n : Int) : String :=
  "invalid value: integer `" ++ Decimal.intText n ++ "`, expected u32"

/-- The text of a reading error; malformed text has none. -/
def ReadError.message? : ReadError → Option String
  | malformed => none
  | wrongType found expected => some (wrongTypeMessage found.describe expected)
  | outOfRange n => some (outOfRangeMessage n)
  | duplicate f => some ("duplicate field `" ++ f.key ++ "`")
  | tooLong n =>
    some ("invalid length " ++ Decimal.text n ++ ", expected fewer elements in array")

end SaveAs.Options
