/-!
# Natural numbers in decimal

`digits` writes a number without leading zeros and `value` reads a run of digits. `canonical` says
which texts `digits` produces; the file names and the number formats are built on these three.
-/

namespace SaveAs.Decimal

def digit (d : Nat) : Char :=
  Char.ofNat (48 + d)

def digits (n : Nat) : List Char :=
  if n < 10 then [digit n] else digits (n / 10) ++ [digit (n % 10)]
termination_by n
decreasing_by omega

def isDigit (c : Char) : Bool :=
  '0' ≤ c && c ≤ '9'

def digitValue (c : Char) : Nat :=
  c.toNat - 48

/-- The number that a run of digits denotes. -/
def value (cs : List Char) : Nat :=
  cs.foldl (fun n c => 10 * n + digitValue c) 0

/-- Digits only, at least one, and no zero in front of another. -/
def canonical : List Char → Bool
  | [] => false
  | ['0'] => true
  | c :: rest => isDigit c && c != '0' && rest.all isDigit

def text (n : Nat) : String :=
  String.ofList (digits n)

def intText (n : Int) : String :=
  if n < 0 then "-" ++ text n.natAbs else text n.natAbs

/-! ### Reading back -/

theorem digitValue_digit {d : Nat} (h : d < 10) : digitValue (digit d) = d := by
  have h' : ∀ d : Fin 10, digitValue (digit d) = d := by decide
  exact h' ⟨d, h⟩

theorem isDigit_digit {d : Nat} (h : d < 10) : isDigit (digit d) = true := by
  have h' : ∀ d : Fin 10, isDigit (digit d) = true := by decide
  exact h' ⟨d, h⟩

theorem value_append_singleton (cs : List Char) (c : Char) :
    value (cs ++ [c]) = 10 * value cs + digitValue c := by
  simp [value]

theorem value_digits (n : Nat) : value (digits n) = n := by
  induction n using digits.induct with
  | case1 n h => rw [digits, if_pos h]; simp [value, digitValue_digit h]
  | case2 n h ih =>
    rw [digits, if_neg h, value_append_singleton, ih, digitValue_digit (by omega)]
    omega

end SaveAs.Decimal
