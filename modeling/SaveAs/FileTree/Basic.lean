/-!
# File trees

A tree of directories and regular files, kept as entries by location. The root is always a directory.
All that later code needs to know is `get?_put`: a write is seen at its own location and nowhere else.
-/

namespace SaveAs

/-- The names that lead from the root to an entry, the innermost first. -/
abbrev Location := List String

inductive Entry
  | file (bytes : List UInt8)
  | directory
  deriving DecidableEq, Repr

structure FileTree where
  entries : List (Location × Entry) := []
  deriving Repr

namespace FileTree

def get? (t : FileTree) : Location → Option Entry
  | [] => some .directory
  | l => t.entries.lookup l

/-- Puts an entry at a location, in place of what is there. -/
def put (t : FileTree) (l : Location) (e : Entry) : FileTree :=
  ⟨(l, e) :: t.entries.filter (·.1 ≠ l)⟩

private theorem lookup_filter_ne (entries : List (Location × Entry)) {l k : Location} (h : k ≠ l) :
    (entries.filter (·.1 ≠ l)).lookup k = entries.lookup k := by
  induction entries with
  | nil => rfl
  | cons e rest ih =>
    obtain ⟨m, b⟩ := e
    by_cases hm : m = l
    · subst hm
      simpa [List.lookup_cons, beq_eq_false_iff_ne.2 h] using ih
    · by_cases hk : k = m
      · subst hk
        simp [hm]
      · simpa [hm, List.lookup_cons, beq_eq_false_iff_ne.2 hk] using ih

theorem get?_put (t : FileTree) {l : Location} (k : Location) (e : Entry) (hl : l ≠ []) :
    (t.put l e).get? k = if k = l then some e else t.get? k := by
  cases k with
  | nil => simp [get?, hl.symm]
  | cons name up =>
    by_cases h : name :: up = l
    · subst h
      simp [get?, put]
    · rw [if_neg h]
      show List.lookup (name :: up) ((l, e) :: t.entries.filter (·.1 ≠ l)) = _
      rw [List.lookup_cons, beq_eq_false_iff_ne.2 h]
      exact lookup_filter_ne t.entries h

/-- The entries below a directory, with their locations from there: every directory comes before what
it holds, and the entries of one directory in the order of their names. -/
def below (t : FileTree) (dir : Location) : List (List String × Entry) :=
  let inside := t.entries.filterMap fun (l, e) =>
    if dir.length < l.length ∧ dir.isSuffixOf l then
      some ((l.take (l.length - dir.length)).reverse, e)
    else none
  inside.mergeSort fun a b => !decide (b.1 < a.1)

end FileTree

end SaveAs
