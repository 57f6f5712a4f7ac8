import SaveAs.Proofs.Options.Agreement

/-!
# What a field holds

A field holds a value, or there is one complaint about it. A member of an object fits if its field holds
its value; members that fit are all taken, and the first that does not is the one complained of.
-/

namespace SaveAs.Options

open Json (Node Token Value Piece)

/-- A field holds the texts, and the suffix bound the integers of 32 bits. -/
def Field.Holds : Field → Value → Prop
  | .maxSuffix, v => ∃ n : UInt32, v = .natural n.toNat
  | _, v => ∃ s, v = .string s

/-- What is wrong with a value that a field does not hold: an integer is out of range for the suffix bound,
and all else is of a wrong type. -/
def Field.complaint (f : Field) (v : Value) : ReadError :=
  match f, Found.ofValue v with
  | .maxSuffix, .integer n => .outOfRange n
  | f, found => .wrongType found f.expected

variable {f : Field} {v : Value} {n : Node} {settings : List Setting} {members : List (List Piece × Node)}

theorem holds_iff : f.Holds v ↔ ∃ s, f.accept (.ofValue v) = .ok s := by
  simp only [accept_ofValue_iff]
  constructor
  · intro h
    cases f with
    | maxSuffix =>
      obtain ⟨n, rfl⟩ := h
      exact ⟨.maxSuffix n, rfl, rfl⟩
    | mimeType =>
      obtain ⟨s, rfl⟩ := h
      exact ⟨.mimeType s, rfl, rfl⟩
    | stem =>
      obtain ⟨s, rfl⟩ := h
      exact ⟨.stem s, rfl, rfl⟩
    | extension =>
      obtain ⟨s, rfl⟩ := h
      exact ⟨.extension s, rfl, rfl⟩
  · rintro ⟨s, rfl, rfl⟩
    cases s with
    | maxSuffix n => exact ⟨n, rfl⟩
    | mimeType s | stem s | extension s => exact ⟨s, rfl⟩

theorem accept_of_not_holds (h : ¬ f.Holds v) : f.accept (.ofValue v) = .error (f.complaint v) := by
  cases haccept : f.accept (.ofValue v) with
  | ok s => exact absurd (holds_iff.2 ⟨s, haccept⟩) h
  | error e =>
    apply congrArg Except.error
    unfold Field.accept at haccept
    unfold Field.complaint
    split at haccept
    case h_1 | h_2 | h_3 => cases haccept
    case h_4 hfound =>
      split at haccept
      · cases haccept
      · cases haccept
        simp only [hfound]
    case h_5 hnumber =>
      cases haccept
      split
      · exact (hnumber _ rfl ‹_›).elim
      · rfl

theorem takeField_of_holds (hvalue : n.Denotes v) (h : f.Holds v) (settings : List Setting) :
    ∃ s : Setting, s.field = f ∧ takeField settings f n = .ok (settings ++ [s]) := by
  obtain ⟨s, haccept⟩ := holds_iff.1 h
  refine ⟨s, Field.field_of_accept haccept, ?_⟩
  rw [takeField_of_denotes hvalue, haccept]
  rfl

theorem takeField_of_not_holds (hvalue : n.Denotes v) (h : ¬ f.Holds v) (settings : List Setting) :
    takeField settings f n = .error (f.complaint v) := by
  rw [takeField_of_denotes hvalue, accept_of_not_holds h]
  rfl

/-! ### Members that fit -/

/-- The name of a member denotes a text, and the field of that name, if there is one, holds the value.
Under any other name there may be any value. -/
def Fits (member : List Piece × Node) : Prop :=
  (∃ name, Node.text? member.1 = some name) ∧
    ∀ f, fieldOf? member = some f → ∃ v, member.2.Denotes v ∧ f.Holds v

theorem fieldOf?_eq_some_iff {member : List Piece × Node} :
    fieldOf? member = some f ↔ Node.text? member.1 = some f.key := by
  simp [fieldOf?, Option.bind_eq_some_iff, Field.ofKey?_eq_some_iff]

theorem takeMember_of_field {member : List Piece × Node} (h : fieldOf? member = some f)
    (hnew : f ∉ settings.map (·.field)) : takeMember settings member = takeField settings f member.2 :=
  takeMember_known (fieldOf?_eq_some_iff.1 h) (Field.ofKey?_key f) hnew member.2

theorem takeMember_of_no_field {member : List Piece × Node}
    (hname : ∃ name, Node.text? member.1 = some name) (h : fieldOf? member = none) (settings : List Setting) :
    takeMember settings member = .ok settings := by
  obtain ⟨name, hname⟩ := hname
  rw [fieldOf?, hname] at h
  exact takeMember_unknown hname h settings member.2

/-- Members that fit are taken, each known one as a setting of its field. -/
theorem foldlM_takeMember_of_fits (hfits : ∀ m ∈ members, Fits m)
    (hnodup : (settings.map (·.field) ++ members.filterMap fieldOf?).Nodup) :
    ∃ final, members.foldlM takeMember settings = .ok final ∧
      final.map (·.field) = settings.map (·.field) ++ members.filterMap fieldOf? := by
  induction members generalizing settings with
  | nil => exact ⟨settings, rfl, (List.append_nil _).symm⟩
  | cons member rest ih =>
    obtain ⟨hname, hholds⟩ := hfits member List.mem_cons_self
    have hrest : ∀ m ∈ rest, Fits m := fun m hm => hfits m (List.mem_cons_of_mem _ hm)
    cases hfield : fieldOf? member with
    | none =>
      rw [List.filterMap_cons_none hfield] at hnodup ⊢
      rw [List.foldlM_cons, takeMember_of_no_field hname hfield]
      exact ih hrest hnodup
    | some f =>
      rw [List.filterMap_cons_some hfield] at hnodup ⊢
      have hnew : f ∉ settings.map (·.field) := by
        intro hf
        exact (List.nodup_append.1 hnodup).2.2 f hf f List.mem_cons_self rfl
      obtain ⟨v, hvalue, hv⟩ := hholds f hfield
      obtain ⟨s, hs, htake⟩ := takeField_of_holds hvalue hv settings
      have hnext : (settings ++ [s]).map (·.field) = settings.map (·.field) ++ [f] := by
        rw [List.map_append, List.map_singleton, hs]
      have hlater : ((settings ++ [s]).map (·.field) ++ rest.filterMap fieldOf?).Nodup := by
        rw [hnext, List.append_assoc]
        exact hnodup
      obtain ⟨final, hfinal, hfields⟩ := ih hrest hlater
      refine ⟨final, ?_, ?_⟩
      · rw [List.foldlM_cons, takeMember_of_field hfield hnew, htake]
        exact hfinal
      · rw [hfields, hnext, List.append_assoc, List.singleton_append]

end SaveAs.Options
