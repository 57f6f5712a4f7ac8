/-!
# Download options

How a download is named and typed. `validate` finds the first fault of an options record; `Valid` is
the absence of one.
-/

namespace SaveAs

/-- The options of a download: its type, and the parts of its file name. -/
structure Options where
  mimeType : String := "image/png"
  /-- What a file name starts with. -/
  stem : String := "out"
  extension : String := "png"
  /-- The number in a file name is below this bound, and zero if the bound is zero. -/
  maxSuffix : UInt32 := 99999
  deriving DecidableEq, Repr

namespace Options

inductive Fault
  | zeroSuffix
  | emptyMimeType
  | emptyExtension
  deriving DecidableEq, Repr

def Fault.message : Fault → String
  | .zeroSuffix => "maxSuffix must be at least 1"
  | .emptyMimeType => "mimeType must not be empty"
  | .emptyExtension => "fileExtension must not be empty"

def validate (o : Options) : Except Fault Unit :=
  if o.maxSuffix = 0 then .error .zeroSuffix
  else if o.mimeType = "" then .error .emptyMimeType
  else if o.extension = "" then .error .emptyExtension
  else .ok ()

def Valid (o : Options) : Prop :=
  o.maxSuffix ≠ 0 ∧ o.mimeType ≠ "" ∧ o.extension ≠ ""

instance (o : Options) : Decidable o.Valid :=
  inferInstanceAs (Decidable (_ ∧ _ ∧ _))

theorem validate_eq_ok_iff (o : Options) : o.validate = .ok () ↔ o.Valid := by
  unfold validate Valid
  by_cases h₁ : o.maxSuffix = 0 <;> by_cases h₂ : o.mimeType = "" <;>
    by_cases h₃ : o.extension = "" <;> simp [h₁, h₂, h₃]

/-- The numbers of file names are below this; it is never zero. -/
def bound (o : Options) : Nat :=
  max o.maxSuffix.toNat 1

theorem bound_pos (o : Options) : 0 < o.bound := by
  unfold bound; omega

theorem bound_lt (o : Options) : o.bound < UInt32.size :=
  Nat.max_lt.2 ⟨o.maxSuffix.toNat_lt_size, by decide⟩

theorem Valid.bound_eq {o : Options} (h : o.Valid) : o.bound = o.maxSuffix.toNat := by
  have : o.maxSuffix.toNat ≠ 0 := fun hz => h.1 (UInt32.toNat_inj.1 hz)
  unfold bound; omega

end Options

end SaveAs
