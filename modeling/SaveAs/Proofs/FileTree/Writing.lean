import SaveAs.FileTree.Path
import SaveAs.Proofs.Except

/-!
# What changes in a tree

A tree changes by writing files and by making directories. A write puts one file where its path leads,
never in place of a directory, and a refused one changes nothing. Making directories adds directories
where nothing was, so that a file is changed by writes alone.
-/

namespace SaveAs.FileTree

variable {t t' : FileTree} {home dir l : Location} {p : Path} {name : String}

/-! ### Writing -/

theorem fileAt_eq_ok (h : t.fileAt dir name = .ok l) :
    l = name :: dir ∧ t.get? l ≠ some .directory := by
  rw [fileAt] at h
  split at h
  · cases h
  · split at h
    · cases h
    · split at h
      · cases h
      · rename_i hfree
        cases h
        exact ⟨rfl, hfree⟩

/-- A path leads to a place for a file: below a directory, and not a directory itself. -/
theorem resolve_eq_ok (h : t.resolve home p = .ok l) : l ≠ [] ∧ t.get? l ≠ some .directory := by
  rw [resolve] at h
  split at h
  · cases h
  · dsimp only at h
    split at h
    · cases h
    · split at h
      · cases h
      · obtain ⟨dir, -, h⟩ := Except.bind_eq_ok_iff.1 h
        split at h
        · cases h
        · obtain ⟨rfl, hfree⟩ := fileAt_eq_ok h
          exact ⟨List.cons_ne_nil _ _, hfree⟩

/-- A tree that differs from another by one regular file. -/
structure Wrote (t : FileTree) (l : Location) (bytes : List UInt8) (t' : FileTree) : Prop where
  free : t.get? l ≠ some .directory
  file : t'.get? l = some (.file bytes)
  others : ∀ k, k ≠ l → t'.get? k = t.get? k

theorem wrote_put (h : t.resolve home p = .ok l) (bytes : List UInt8) :
    t.Wrote l bytes (t.put l (.file bytes)) := by
  obtain ⟨hne, hfree⟩ := resolve_eq_ok h
  refine ⟨hfree, ?_, fun k hk => ?_⟩
  · rw [get?_put _ _ _ hne, if_pos rfl]
  · rw [get?_put _ _ _ hne, if_neg hk]

/-! ### Making directories -/

/-- A tree with directories more than another. -/
def Furnished (t t' : FileTree) : Prop :=
  ∀ k, t'.get? k = t.get? k ∨ t.get? k = none ∧ t'.get? k = some .directory

theorem Furnished.refl (t : FileTree) : t.Furnished t :=
  fun _ => .inl rfl

theorem Furnished.trans {t'' : FileTree} (h : t.Furnished t') (h' : t'.Furnished t'') :
    t.Furnished t'' := by
  intro k
  obtain hkeep | ⟨hnone, hmade⟩ := h k
  · rw [← hkeep]
    exact h' k
  · obtain hkeep' | ⟨hnone', -⟩ := h' k
    · exact .inr ⟨hnone, hkeep'.trans hmade⟩
    · rw [hmade] at hnone'
      cases hnone'

theorem furnished_put (hne : l ≠ []) (hnone : t.get? l = none) : t.Furnished (t.put l .directory) := by
  intro k
  rw [get?_put _ _ _ hne]
  split
  · rename_i hk
    exact .inr ⟨hk ▸ hnone, rfl⟩
  · exact .inl rfl

theorem furnished_makeDirectories (t : FileTree) (dir : Location) (names : List String) :
    t.Furnished (t.makeDirectories dir names) := by
  induction names generalizing t dir with
  | nil => exact .refl t
  | cons name rest ih =>
    rw [makeDirectories]
    split
    · exact ih t dir
    · split
      · exact ih t dir.tail
      · split
        · exact .refl t
        · split
          · rename_i hnone
            exact (furnished_put (List.cons_ne_nil _ _) hnone).trans (ih _ _)
          · exact ih t (name :: dir)
          · exact .refl t

theorem furnished_makeDirectory (t : FileTree) (home : Location) (p : Path) :
    t.Furnished (t.makeDirectory home p) := by
  rw [makeDirectory]
  split
  · exact .refl t
  · exact furnished_makeDirectories t _ _

/-! ### Changes -/

/-- What is done to a tree. -/
inductive Change
  | directory (p : Path)
  | file (p : Path) (bytes : List UInt8)

/-- A write that is refused changes nothing. -/
def change (home : Location) (t : FileTree) : Change → FileTree
  | .directory p => t.makeDirectory home p
  | .file p bytes =>
    match t.write home p bytes with
    | .ok t' => t'
    | .error _ => t

theorem change_file (home : Location) (t : FileTree) (p : Path) (bytes : List UInt8) :
    t.change home (.file p bytes) =
      match t.resolve home p with
      | .ok l => t.put l (.file bytes)
      | .error _ => t := by
  rw [change, write]
  cases t.resolve home p <;> rfl

/-- The bytes that a change puts at a location. -/
def Change.bytesAt? (t : FileTree) (home l : Location) : Change → Option (List UInt8)
  | .directory _ => none
  | .file p bytes =>
    match t.resolve home p with
    | .ok k => if k = l then some bytes else none
    | .error _ => none

/-- What a location holds in a later tree, by the last bytes that were put there. Where none were, it holds
what it did, or a directory was made where nothing was. -/
def Holds (t : FileTree) (l : Location) (t' : FileTree) : Option (List UInt8) → Prop
  | some bytes => t'.get? l = some (.file bytes)
  | none => t'.get? l = t.get? l ∨ t.get? l = none ∧ t'.get? l = some .directory

theorem Holds.refl (t : FileTree) (l : Location) : t.Holds l t none :=
  .inl rfl

theorem Holds.trans {t'' : FileTree} {first last : Option (List UInt8)} (h : t.Holds l t' first)
    (h' : t'.Holds l t'' last) : t.Holds l t'' (last.or first) := by
  cases last with
  | some bytes => exact h'
  | none =>
    rw [Option.none_or]
    obtain hkeep | ⟨hnone, hmade⟩ := h'
    · cases first <;> simpa only [Holds, hkeep] using h
    · cases first with
      | some bytes => exact absurd (hnone.symm.trans h) (Option.some_ne_none _).symm
      | none =>
        obtain hkeep | ⟨-, hmade'⟩ := h
        · exact .inr ⟨hkeep ▸ hnone, hmade⟩
        · exact absurd (hnone.symm.trans hmade') (Option.some_ne_none _).symm

theorem holds_change (t : FileTree) (home l : Location) (c : Change) :
    t.Holds l (t.change home c) (c.bytesAt? t home l) := by
  cases c with
  | directory p => exact furnished_makeDirectory t home p l
  | file p bytes =>
    rw [change_file, Change.bytesAt?]
    cases hresolve : t.resolve home p with
    | error refusal => exact .refl t l
    | ok k =>
      have hwrote : t.Wrote k bytes (t.put k (.file bytes)) := wrote_put hresolve bytes
      by_cases hk : k = l
      · subst hk
        simp only [if_pos]
        exact hwrote.file
      · simp only [if_neg hk]
        exact .inl (hwrote.others l (Ne.symm hk))

end SaveAs.FileTree
