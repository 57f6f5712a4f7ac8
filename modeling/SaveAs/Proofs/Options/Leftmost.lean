import SaveAs.Proofs.Json.Leading
import SaveAs.Proofs.Options.Holding

/-!
# The leftmost defect decides

Options are read from the tokens of a text one after another, and the reader stops at the first token that
it does not accept. So where the members written so far fit, what comes next is judged alone: a value by
its first token, a known name that came before by itself, and anything that is no name as malformed.
-/

namespace SaveAs.Options

open Json (Node Token Value Piece)

variable {members : List (List Piece × Node)} {settings : List Setting} {f : Field} {pieces : List Piece}
  {n : Node} {v : Value} {t : Token} {ts : List Token} {before rest : List Char}

namespace Reader

/-- In front of a name, members are taken up to the comma behind the last. -/
theorem run_ledTokens (members : List (List Piece × Node)) (ts : List Token) (settings : List Setting) :
    run ⟨settings, .name⟩ (Node.ledTokens members ++ ts) =
      members.foldlM takeMember settings >>= fun settings => run ⟨settings, .name⟩ ts := by
  induction members generalizing settings with
  | nil => rfl
  | cons member rest ih =>
    obtain ⟨name, n⟩ := member
    rw [Node.ledTokens, List.cons_append, List.cons_append, List.append_assoc, run_member, List.foldlM_cons]
    cases takeMember settings (name, n) with
    | error e => rfl
    | ok next =>
      have hcomma : step ⟨next, .afterMember⟩ .comma = .ok ⟨next, .name⟩ := rfl
      exact (run_of_ok hcomma _).trans (ih next)

/-- An object may end in front of its first name, but not in front of a later one. -/
theorem run_opened (ht : members = [] → t ≠ .closing .curly) :
    run ⟨[], .start⟩ (.opening .curly :: (Node.ledTokens members ++ t :: ts)) =
      members.foldlM takeMember [] >>= fun settings => run ⟨settings, .name⟩ (t :: ts) := by
  have hopen : step ⟨[], .start⟩ (.opening .curly) = .ok ⟨[], .firstName⟩ := rfl
  rw [run_of_ok hopen, ← run_ledTokens]
  cases members with
  | nil =>
    rw [Node.ledTokens, List.nil_append, run_cons, step_firstName (ht rfl), ← run_cons]
  | cons member rest =>
    have hstring : Token.string member.1 ≠ .closing .curly := by
      intro h
      cases h
    rw [Node.ledTokens, List.cons_append, run_cons, step_firstName hstring, ← run_cons]

/-! ### One step in front of a name -/

theorem step_name_new (hname : Node.text? pieces = some f.key) (hnew : f ∉ settings.map (·.field)) :
    step ⟨settings, .name⟩ (.string pieces) = .ok ⟨settings, .colon (some f)⟩ := by
  obtain ⟨cs, hcs, hkey⟩ := Option.map_eq_some_iff.1 hname
  have hgiven : ¬ given ⟨settings, .name⟩ f = true := by
    intro h
    obtain ⟨s, hs, hfield⟩ := List.any_eq_true.1 h
    exact hnew (List.mem_map.2 ⟨s, hs, of_decide_eq_true hfield⟩)
  simp only [step, readName, hcs, hkey, Field.ofKey?_key, if_neg hgiven]

theorem step_name_given (hname : Node.text? pieces = some f.key) (hgiven : f ∈ settings.map (·.field)) :
    step ⟨settings, .name⟩ (.string pieces) = .error (.duplicate f) := by
  obtain ⟨cs, hcs, hkey⟩ := Option.map_eq_some_iff.1 hname
  have hgiven : given ⟨settings, .name⟩ f = true := by
    obtain ⟨s, hs, hfield⟩ := List.mem_map.1 hgiven
    exact List.any_eq_true.2 ⟨s, hs, decide_eq_true hfield⟩
  simp only [step, readName, hcs, hkey, Field.ofKey?_key, if_pos hgiven]

theorem step_name_no_string (ht : ∀ pieces, t ≠ .string pieces) :
    step ⟨settings, .name⟩ t = .error .malformed := by
  cases t with
  | string pieces => exact absurd rfl (ht pieces)
  | _ => rfl

theorem step_value_of_not_holds (hvalue : n.Denotes v) (h : ¬ f.Holds v) :
    step ⟨settings, .value f⟩ n.head = .error (f.complaint v) := by
  have haccept : step ⟨settings, .value f⟩ n.head = accept ⟨settings, .value f⟩ f n.head .afterMember := rfl
  rw [haccept, accept, ofToken_head hvalue]
  simp only [bind, Except.bind, accept_of_not_holds h]

end Reader

/-! ### A text after some of its members -/

/-- A text that has opened an object and goes up to the comma behind one of its members, if it has any, and
blanks after it. The members fit, and no known name is repeated. -/
structure Opened (members : List (List Piece × Node)) (before : List Char) : Prop where
  written : Token.Written (.opening .curly :: Node.ledTokens members) before
  fits : ∀ m ∈ members, Fits m
  nodup : (members.filterMap fieldOf?).Nodup

/-- The members have left the reader in front of a name, with their settings, so that what it says of the
next tokens is what it says of the text. -/
theorem Opened.ofText_eq_error (h : Opened members before) (hscan : Token.scan rest = t :: ts)
    (ht : members = [] → t ≠ .closing .curly) :
    ∃ settings : List Setting, settings.map (·.field) = members.filterMap fieldOf? ∧
      ∀ e, Reader.run ⟨settings, .name⟩ (t :: ts) = .error e →
        ofText (String.ofList (before ++ rest)) = .error e := by
  obtain ⟨settings, hsettings, hfields⟩ := @foldlM_takeMember_of_fits [] members h.fits h.nodup
  refine ⟨settings, hfields, fun e he => ?_⟩
  have hrun : Reader.run ⟨[], .start⟩ (Token.scan (before ++ rest)) = .error e := by
    rw [Node.scan_opened h.written, hscan, Reader.run_opened ht, hsettings]
    exact he
  rw [ofText, String.toList_ofList, ofTokens, hrun]
  rfl

end SaveAs.Options
