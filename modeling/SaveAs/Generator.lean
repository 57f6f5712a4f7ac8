/-!
# Random words

A generator is a stream of 32-bit words and a count of those drawn. `below` draws a number below a
bound from one word, or from two where the first leaves the number open. `scaled` is what it computes:
the two words as one 64-bit fraction, times the bound.
-/

namespace SaveAs

/-- A stream of words, and how many of them are drawn. -/
structure Generator where
  word : Nat → UInt32
  drawn : Nat := 0

namespace Generator

/-- The words of a list over and over; zeros, if the list is empty. -/
def cycle (words : List UInt32) : Generator :=
  ⟨fun i => (words[i % words.length]?).getD 0, 0⟩

/-- The upper half of a word times the bound: a number below the bound. -/
def upper (w : UInt32) (m : Nat) : Nat := w.toNat * m / UInt32.size

/-- The lower half, which a second word may carry into the upper one. -/
def lower (w : UInt32) (m : Nat) : Nat := w.toNat * m % UInt32.size

/-- Whether the first word leaves the number open. -/
def isOpen (w : UInt32) (m : Nat) : Bool := UInt32.size - m < lower w m

/-- The number that two words give; the second counts only where the first leaves it open. -/
def pick (w₁ w₂ : UInt32) (m : Nat) : Nat :=
  if isOpen w₁ m ∧ UInt32.size ≤ lower w₁ m + upper w₂ m then upper w₁ m + 1 else upper w₁ m

def wordsNeeded (w : UInt32) (m : Nat) : Nat := if isOpen w m then 2 else 1

/-- A number below `m`, for a positive `m` of at most 32 bits, and the generator after the draw. -/
def below (g : Generator) (m : Nat) : Nat × Generator :=
  (pick (g.word g.drawn) (g.word (g.drawn + 1)) m,
    { g with drawn := g.drawn + wordsNeeded (g.word g.drawn) m })

/-- Two words, read as a fraction of 64 bits, times the bound. -/
def scaled (w₁ w₂ : UInt32) (m : Nat) : Nat :=
  (w₁.toNat * UInt32.size + w₂.toNat) * m / UInt64.size

end Generator

end SaveAs
