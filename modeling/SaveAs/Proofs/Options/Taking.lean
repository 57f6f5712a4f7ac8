import Mathlib.Data.List.Nodup
import SaveAs.Proofs.Json.Denoting
import SaveAs.Proofs.Json.Writing
import SaveAs.Proofs.Options.Grammar

/-!
# Taking the members of a value

Over a tree that denotes a value, the reader of tokens takes what the value's members and items are. It
meets them in the order of the text, and the list of a value may have another one, but where no name is
repeated a lookup finds the same in both.
-/

namespace SaveAs.Options

open Json (Node Value Piece)

variable {members : List (List Piece × Node)} {items : List Node} {vs : List Value}
  {listed ws : List (String × Value)} {n : Node} {v : Value} {settings : List Setting}

/-! ### Lookups -/

theorem lookup_eq_some_iff {α : Type} {l : List (String × α)} (hnodup : (l.map (·.1)).Nodup)
    {name : String} {a : α} : l.lookup name = some a ↔ (name, a) ∈ l := by
  induction l with
  | nil => simp
  | cons entry rest ih =>
    obtain ⟨key, b⟩ := entry
    obtain ⟨hkey, hrest⟩ := List.nodup_cons.1 hnodup
    by_cases h : name = key
    · subst h
      have hnot : (name, a) ∉ rest := fun hmem => hkey (List.mem_map.2 ⟨_, hmem, rfl⟩)
      simp [hnot, eq_comm]
    · simp [List.lookup_cons, h, beq_eq_false_iff_ne.2 h, ih hrest]

theorem member?_eq_some_iff (hnodup : (ws.map (·.1)).Nodup) {name : String} :
    Value.member? ws name = some v ↔ (name, v) ∈ ws := by
  have hreversed : (ws.reverse.map (·.1)).Nodup := (ws.reverse_perm.map _).nodup_iff.2 hnodup
  rw [Value.member?, lookup_eq_some_iff hreversed, List.mem_reverse]

/-- Where no name is repeated, the order of the members makes no difference. -/
theorem member?_of_perm (hperm : listed.Perm ws) (hnodup : (ws.map (·.1)).Nodup) (name : String) :
    Value.member? ws name = listed.lookup name := by
  have hlisted : (listed.map (·.1)).Nodup := (hperm.map _).nodup_iff.2 hnodup
  refine Option.ext fun v => ?_
  rw [member?_eq_some_iff hnodup, lookup_eq_some_iff hlisted, hperm.mem_iff]

/-- The known members, each for its field. -/
def known (members : List (String × Value)) : List (Field × Found) :=
  members.filterMap fun m => (Field.ofKey? m.1).map fun f => (f, Found.ofValue m.2)

theorem known_of_none {name : String} (h : Field.ofKey? name = none) (v : Value)
    (rest : List (String × Value)) : known ((name, v) :: rest) = known rest :=
  List.filterMap_cons_none (by rw [h]; rfl)

theorem known_of_some {name : String} {f : Field} (h : Field.ofKey? name = some f) (v : Value)
    (rest : List (String × Value)) : known ((name, v) :: rest) = (f, Found.ofValue v) :: known rest :=
  List.filterMap_cons_some (by rw [h]; rfl)

theorem lookup_known (members : List (String × Value)) (f : Field) :
    (known members).lookup f = (members.lookup f.key).map Found.ofValue := by
  induction members with
  | nil => rfl
  | cons member rest ih =>
    obtain ⟨name, v⟩ := member
    have hkey (g : Field) : Field.ofKey? name = some g ↔ g.key = name :=
      Field.ofKey?_eq_some_iff.trans eq_comm
    cases hname : Field.ofKey? name with
    | none =>
      have hne : f.key ≠ name := fun h => by cases hname.symm.trans ((hkey f).2 h)
      rw [known_of_none hname, List.lookup_cons, beq_eq_false_iff_ne.2 hne]
      exact ih
    | some g =>
      rw [known_of_some hname, List.lookup_cons, List.lookup_cons]
      by_cases hf : f = g
      · subst hf
        simp [(hkey f).1 hname]
      · have hne : f.key ≠ name := fun h => hf (Option.some.inj (((hkey f).2 h).symm.trans hname))
        rw [beq_eq_false_iff_ne.2 hf, beq_eq_false_iff_ne.2 hne]
        exact ih

theorem nodup_known (hnodup : (listed.map (·.1)).Nodup) : ((known listed).map (·.1)).Nodup := by
  have hfields : (known listed).map (·.1) = (listed.map (·.1)).filterMap Field.ofKey? := by
    rw [known, List.map_filterMap, List.filterMap_map]
    simp only [Option.map_map, Function.comp_def, Option.map_id']
  rw [hfields]
  refine List.Nodup.filterMap (fun name name' f hf hf' => ?_) hnodup
  rw [Field.ofKey?_eq_some_iff.1 hf, Field.ofKey?_eq_some_iff.1 hf']

/-! ### The tokens of a value -/

/-- The first token of a tree shows what kind of value it denotes. -/
theorem ofToken_head (h : n.Denotes v) : Found.ofToken n.head = .ok (Found.ofValue v) := by
  cases h with
  | number h => simp only [Node.head, Found.ofToken, h, Found.ofValue]
  | string h =>
    obtain ⟨cs, hcs, rfl⟩ := Option.map_eq_some_iff.1 h
    simp only [Node.head, Found.ofToken, hcs, Found.ofValue]
  | _ => rfl

theorem takeField_of_denotes (h : n.Denotes v) (settings : List Setting) (f : Field) :
    takeField settings f n = (f.accept (.ofValue v)).map fun s => settings ++ [s] := by
  have hfound : takeField settings f n =
      f.accept (.ofValue v) >>= fun s => .ok (settings ++ [s]) := by
    rw [takeField, ofToken_head h]
    rfl
  rw [hfound]
  cases f.accept (.ofValue v) <;> rfl

theorem takeMember_unknown {pieces : List Piece} {name : String} (hname : Node.text? pieces = some name)
    (hkey : Field.ofKey? name = none) (settings : List Setting) (n : Node) :
    takeMember settings (pieces, n) = .ok settings := by
  simp only [takeMember, hname, hkey]

theorem takeMember_known {pieces : List Piece} {name : String} {f : Field}
    (hname : Node.text? pieces = some name) (hkey : Field.ofKey? name = some f)
    (hnew : f ∉ settings.map (·.field)) (n : Node) :
    takeMember settings (pieces, n) = takeField settings f n := by
  have hany : ¬ settings.any (·.field = f) = true := by
    intro h
    obtain ⟨s, hs, hfield⟩ := List.any_eq_true.1 h
    exact hnew (List.mem_map.2 ⟨s, hs, of_decide_eq_true hfield⟩)
  simp only [takeMember, hname, hkey, if_neg hany]

/-- Members are taken in the order of the text, and the known ones all have to be accepted. -/
theorem foldlM_takeMember (h : List.Forall₂ Node.MemberDenotes members listed)
    (hnodup : (settings.map (·.field) ++ (known listed).map (·.1)).Nodup) :
    members.foldlM takeMember settings =
      (accepted (known listed)).map fun taken => settings ++ taken := by
  induction h generalizing settings with
  | nil => exact congrArg Except.ok (List.append_nil settings).symm
  | @cons member entry members listed hmember hrest ih =>
    obtain @⟨pieces, name, n, v, hname, hvalue⟩ := hmember
    rw [List.foldlM_cons]
    cases hkey : Field.ofKey? name with
    | none =>
      rw [known_of_none hkey] at hnodup ⊢
      rw [takeMember_unknown hname hkey]
      exact ih hnodup
    | some f =>
      rw [known_of_some hkey] at hnodup ⊢
      have hnew : f ∉ settings.map (·.field) := by
        intro hf
        exact (List.nodup_append.1 hnodup).2.2 f hf f List.mem_cons_self rfl
      rw [takeMember_known hname hkey hnew, takeField_of_denotes hvalue, accepted_cons]
      cases haccept : f.accept (.ofValue v) with
      | error e => rfl
      | ok s =>
        have hfield : s.field = f := Field.field_of_accept haccept
        have hlater := @ih (settings ++ [s]) (by simpa [hfield] using hnodup)
        refine hlater.trans ?_
        cases accepted (known listed) with
        | error e => rfl
        | ok taken => exact congrArg Except.ok (List.append_assoc settings [s] taken)

/-- Items for which there are fields are taken in their order, and all have to be accepted. -/
theorem takeItems_eq (h : List.Forall₂ Node.Denotes items vs) {fields : List Field}
    (hlength : vs.length ≤ fields.length) (settings : List Setting) :
    takeItems fields settings items =
      (accepted (fields.zip (vs.map Found.ofValue))).map fun taken => settings ++ taken := by
  induction h generalizing fields settings with
  | nil =>
    rw [takeItems, List.map_nil, List.zip_nil_right]
    exact congrArg Except.ok (List.append_nil settings).symm
  | @cons n v items vs hvalue hrest ih =>
    cases fields with
    | nil => exact absurd hlength (by simp)
    | cons f fields =>
      rw [takeItems, takeField_of_denotes hvalue, List.map_cons, List.zip_cons_cons, accepted_cons]
      cases f.accept (.ofValue v) with
      | error e => rfl
      | ok s =>
        refine (ih (Nat.le_of_succ_le_succ hlength) (settings ++ [s])).trans ?_
        cases accepted (fields.zip (vs.map Found.ofValue)) with
        | error e => rfl
        | ok taken => exact congrArg Except.ok (List.append_assoc settings [s] taken)

/-- None is taken for which there is no field. -/
theorem length_le_of_takeItems {fields : List Field} {final : List Setting}
    (h : takeItems fields settings items = .ok final) : items.length ≤ fields.length := by
  induction items generalizing fields settings with
  | nil => exact Nat.zero_le _
  | cons n rest ih =>
    cases fields with
    | nil => cases h
    | cons f fields =>
      obtain ⟨next, -, hrest⟩ := Except.bind_eq_ok_iff.1 h
      exact Nat.succ_le_succ (ih hrest)

theorem takeItems_eq_ok_iff (h : List.Forall₂ Node.Denotes items vs) (fields : List Field)
    (settings final : List Setting) :
    takeItems fields settings items = .ok final ↔
      vs.length ≤ fields.length ∧
        (accepted (fields.zip (vs.map Found.ofValue))).map (fun taken => settings ++ taken) =
          .ok final := by
  constructor
  · intro htaken
    have hlength : vs.length ≤ fields.length := by
      rw [← h.length_eq]
      exact length_le_of_takeItems htaken
    exact ⟨hlength, (takeItems_eq h hlength settings).symm.trans htaken⟩
  · rintro ⟨hlength, htaken⟩
    exact (takeItems_eq h hlength settings).trans htaken

end SaveAs.Options
