import SaveAs.FileTree.Path
import SaveAs.Proofs.Except

/-!
# A name in a directory

What a directory's path and a name joined to it stand for. A name without a slash becomes the last
name of the path and leaves the walk through the directory as it is, so resolving the joined path is
walking to the directory and asking it for the name. `resolve_join` says this for every outcome, and
`DirectoryAt` is the case in which the walk arrives. The limit on whole paths is about the spelling of the
directory, not about the directory: `dotted` spells one as long as needed.
-/

namespace SaveAs

namespace Path

theorem segments_ne_nil (cs : List Char) : segments cs ≠ [] := by
  cases cs with
  | nil => simp [segments]
  | cons c cs =>
    rw [segments]
    split
    · simp
    · split <;> simp

theorem segments_append_slash (front back : List Char) :
    segments (front ++ '/' :: back) = segments front ++ segments back := by
  induction front with
  | nil => simp [segments]
  | cons c front ih =>
    rw [List.cons_append, segments, segments, ih]
    split
    · rfl
    · cases hfront : segments front with
      | nil => exact absurd hfront (segments_ne_nil front)
      | cons s rest => rfl

theorem segments_of_not_mem {cs : List Char} (h : '/' ∉ cs) : segments cs = [cs] := by
  induction cs with
  | nil => rfl
  | cons c cs ih =>
    obtain ⟨hc, hcs⟩ := not_or.1 (mt List.mem_cons.2 h)
    rw [segments, if_neg (Ne.symm hc), ih hcs]

/-! ### Joining a name -/

variable {p : Path} {name : String}

/-- The text of a joined path: a slash stands between the two, from the directory's own text or new. -/
theorem text_join (hslash : '/' ∉ name.toList) :
    ∃ front, (p.join name).text.toList = front ++ '/' :: name.toList ∧
      (p.text.toList = front ++ ['/'] ∨ p.text.toList = front) := by
  have hhead : name.toList.head? ≠ some '/' := fun h => hslash (List.mem_of_head? h)
  rw [join, if_neg hhead]
  split
  · rename_i hlast
    obtain ⟨front, hfront⟩ := List.getLast?_eq_some_iff.1 hlast
    exact ⟨front, by simp [hfront], .inl hfront⟩
  · exact ⟨p.text.toList, by simp, .inr rfl⟩

theorem base_join (hslash : '/' ∉ name.toList) : (p.join name).base = p.base := by
  have hhead : name.toList.head? ≠ some '/' := fun h => hslash (List.mem_of_head? h)
  rw [join, if_neg hhead]
  split <;> rfl

theorem start_join (hslash : '/' ∉ name.toList) (home : Location) :
    (p.join name).start home = p.start home := by
  rw [start, base_join hslash, start]

theorem names_join (hslash : '/' ∉ name.toList) (hname : name ≠ "") :
    (p.join name).names = p.names ++ [name] := by
  obtain ⟨front, htext, hfront⟩ := text_join (p := p) hslash
  have hlast : ([name.toList].filter (· ≠ [])).map String.ofList = [name] := by
    simp [hname]
  rw [names, names, htext, segments_append_slash, segments_of_not_mem hslash, List.filter_append,
    List.map_append, hlast]
  obtain hfront | hfront := hfront
  · rw [hfront, segments_append_slash]
    simp [segments]
  · rw [hfront]

theorem hasNul_join (hslash : '/' ∉ name.toList) :
    (p.join name).hasNul = (p.hasNul || name.toList.contains '\x00') := by
  obtain ⟨front, htext, hfront⟩ := text_join (p := p) hslash
  rw [hasNul, hasNul, htext]
  obtain hfront | hfront := hfront <;> simp [hfront]

theorem endsInSlash_join (hslash : '/' ∉ name.toList) (hname : name ≠ "") :
    (p.join name).endsInSlash = false := by
  obtain ⟨front, htext, -⟩ := text_join (p := p) hslash
  obtain hnil | ⟨before, c, hc⟩ := name.toList.eq_nil_or_concat
  · exact absurd (by simpa using hnil) hname
  · rw [List.concat_eq_append] at hc
    have hne : c ≠ '/' := by
      rintro rfl
      exact hslash (hc ▸ List.mem_append_right before List.mem_cons_self)
    rw [endsInSlash, htext, hc, ← List.cons_append, ← List.append_assoc, List.getLast?_concat]
    simpa using hne

/-! ### Sizes -/

private theorem foldl_size (l : Location) (n k : Nat) :
    l.foldl (fun n name => n + name.utf8ByteSize + 1) (n + k) =
      l.foldl (fun n name => n + name.utf8ByteSize + 1) n + k := by
  induction l generalizing n with
  | nil => rfl
  | cons name l ih =>
    rw [List.foldl_cons, List.foldl_cons, ← ih]
    congr 1
    omega

theorem size_join (hslash : '/' ∉ name.toList) (hend : p.endsInSlash = false) (home : Location) :
    (p.join name).size home = p.size home + (name.utf8ByteSize + 1) := by
  have hhead : name.toList.head? ≠ some '/' := fun h => hslash (List.mem_of_head? h)
  have hlast : p.text.toList.getLast? ≠ some '/' := by simpa [endsInSlash] using hend
  have hslashSize : "/".utf8ByteSize = 1 := by decide
  have htext : (p.text ++ "/" ++ name).utf8ByteSize =
      p.text.utf8ByteSize + (name.utf8ByteSize + 1) := by
    rw [String.utf8ByteSize_append, String.utf8ByteSize_append, hslashSize]
    omega
  rw [size, start_join hslash, join, if_neg hhead, if_neg hlast, htext, foldl_size, size]

/-! ### The same directory over and over -/

/-- A path that stays where it leads for some names more. -/
def dotted (p : Path) : Nat → Path
  | 0 => p
  | n + 1 => (p.dotted n).join "."

variable (p) (n : Nat)

theorem names_dotted : (p.dotted n).names = p.names ++ List.replicate n "." := by
  induction n with
  | zero => exact (List.append_nil _).symm
  | succ n ih =>
    rw [dotted, names_join (by decide) (by decide), ih, List.append_assoc, List.replicate_succ']

theorem start_dotted (home : Location) : (p.dotted n).start home = p.start home := by
  induction n with
  | zero => rfl
  | succ n ih => rw [dotted, start_join (by decide), ih]

theorem hasNul_dotted : (p.dotted n).hasNul = p.hasNul := by
  induction n with
  | zero => rfl
  | succ n ih =>
    have hdot : ".".toList.contains '\x00' = false := by decide
    rw [dotted, hasNul_join (by decide), ih, hdot, Bool.or_false]

variable {p}

theorem endsInSlash_dotted (hend : p.endsInSlash = false) : (p.dotted n).endsInSlash = false := by
  cases n with
  | zero => exact hend
  | succ n => exact endsInSlash_join (by decide) (by decide)

theorem size_dotted (hend : p.endsInSlash = false) (home : Location) :
    (p.dotted n).size home = p.size home + 2 * n := by
  induction n with
  | zero => rfl
  | succ n ih =>
    have hdot : ".".utf8ByteSize = 1 := by decide
    rw [dotted, size_join (by decide) (endsInSlash_dotted n hend), ih, hdot]
    omega

end Path

namespace FileTree

variable {t : FileTree} {home dir : Location} {p : Path} {name : String}

/-- Resolving a name in a directory: the limits on the whole path, the walk to the directory, and what
the directory has under the name. -/
theorem resolve_join (hslash : '/' ∉ name.toList) (hname : name ≠ "") :
    t.resolve home (p.join name) =
      if p.hasNul || name.toList.contains '\x00' then .error .nulByte
      else if longestPath < (p.join name).size home then .error .nameTooLong
      else p.names.foldlM t.enter (p.start home) >>= fun dir => t.fileAt dir name := by
  rw [resolve, Path.hasNul_join hslash, Path.names_join hslash hname, Path.start_join hslash,
    Path.endsInSlash_join hslash hname, List.getLast?_concat, List.dropLast_concat]
  by_cases hnul : (p.hasNul || name.toList.contains '\x00') = true
  · simp only [hnul]
    rfl
  · by_cases hlimit : longestPath < (p.join name).size home
    · simp only [hnul, hlimit]
      rfl
    · simp only [hnul, hlimit]
      rfl

/-- A path leads to a directory: each of its names is a directory of the one before. -/
structure DirectoryAt (t : FileTree) (home : Location) (p : Path) (dir : Location) : Prop where
  noNul : p.hasNul = false
  walk : p.names.foldlM t.enter (p.start home) = .ok dir
  directory : t.get? dir = some .directory

/-- In a directory that is there, the limit on whole paths and what has the name decide. -/
theorem DirectoryAt.resolve_join (h : t.DirectoryAt home p dir) (hslash : '/' ∉ name.toList)
    (hname : name ≠ "") (hnul : '\x00' ∉ name.toList) :
    t.resolve home (p.join name) =
      if longestPath < (p.join name).size home then .error .nameTooLong else t.fileAt dir name := by
  have hplain : (p.hasNul || name.toList.contains '\x00') = false := by
    rw [h.noNul, Bool.false_or, List.contains_eq_mem]
    exact decide_eq_false hnul
  rw [FileTree.resolve_join hslash hname, hplain, if_neg Bool.false_ne_true, h.walk]
  rfl

theorem DirectoryAt.dotted (h : t.DirectoryAt home p dir) (n : Nat) :
    t.DirectoryAt home (p.dotted n) dir where
  noNul := (p.hasNul_dotted n).trans h.noNul
  directory := h.directory
  walk := by
    have hstay : (List.replicate n ".").foldlM t.enter dir = .ok dir := by
      induction n with
      | zero => rfl
      | succ n ih =>
        have hdot : t.enter dir "." = .ok dir := if_pos rfl
        rw [List.replicate_succ, List.foldlM_cons, hdot]
        exact ih
    rw [Path.names_dotted, Path.start_dotted, List.foldlM_append, h.walk]
    exact hstay

end FileTree

end SaveAs
