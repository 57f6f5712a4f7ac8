import SaveAs.Options.OfValue
import SaveAs.Proofs.Except

/-!
# Options, field by field

What is read is a list of fields with what was found for each, in the order of the reader. The order
makes no difference to the options that come of it, nor to whether any come: each field has the setting
that it accepts, and those that nothing was found for have their defaults.
-/

namespace SaveAs.Options

/-- A field of the options, as a setting. -/
def setting (o : Options) : Field → Setting
  | .mimeType => .mimeType o.mimeType
  | .stem => .stem o.stem
  | .extension => .extension o.extension
  | .maxSuffix => .maxSuffix o.maxSuffix

variable {o o' : Options} {f : Field}

theorem eq_of_setting (h : ∀ f, o.setting f = o'.setting f) : o = o' := by
  have hmimeType := Setting.mimeType.inj (h .mimeType)
  have hstem := Setting.stem.inj (h .stem)
  have hextension := Setting.extension.inj (h .extension)
  have hmaxSuffix := Setting.maxSuffix.inj (h .maxSuffix)
  cases o
  cases o'
  rw [Options.mk.injEq]
  exact ⟨hmimeType, hstem, hextension, hmaxSuffix⟩

theorem setting_apply (o : Options) (s : Setting) (f : Field) :
    (s.apply o).setting f = if f = s.field then s else o.setting f := by
  cases s <;> cases f <;> rfl

/-- What options give a field, if something was found for it or nothing. -/
def Gives (o base : Options) (f : Field) : Option Found → Prop
  | none => o.setting f = base.setting f
  | some found => f.accept found = .ok (o.setting f)

/-- The settings that fields make of what was found for them. -/
def accepted (found : List (Field × Found)) : Except ReadError (List Setting) :=
  found.mapM fun (f, x) => f.accept x

theorem accepted_cons (f : Field) (x : Found) (rest : List (Field × Found)) :
    accepted ((f, x) :: rest) = do return (← f.accept x) :: (← accepted rest) := by
  rw [accepted, List.mapM_cons]
  rfl

theorem lookup_eq_none {rest : List (Field × Found)} (h : f ∉ rest.map (·.1)) : rest.lookup f = none := by
  rw [List.lookup_eq_none_iff]
  intro e he
  refine bne_iff_ne.2 ?_
  rintro rfl
  exact h (List.mem_map_of_mem he)

/-- Each field is what was found for it, or as before. -/
theorem foldl_accepted_iff {found : List (Field × Found)} (hnodup : (found.map (·.1)).Nodup)
    (base o : Options) :
    (accepted found).map (·.foldl Setting.apply base) = .ok o ↔
      ∀ f, o.Gives base f (found.lookup f) := by
  induction found generalizing base with
  | nil =>
    constructor
    · intro h f
      rw [show base = o from Except.ok.inj h]
      rfl
    · intro h
      exact congrArg Except.ok (eq_of_setting h).symm
  | cons entry rest ih =>
    obtain ⟨g, x⟩ := entry
    obtain ⟨hg, hrest⟩ := List.nodup_cons.1 hnodup
    rw [accepted_cons]
    cases haccept : g.accept x with
    | error e =>
      refine iff_of_false (fun h => by cases h) fun h => ?_
      have hgives := h g
      rw [List.lookup_cons_self, Gives, haccept] at hgives
      cases hgives
    | ok s =>
      have hfield : s.field = g := Field.field_of_accept haccept
      have hstep : ((do return s :: (← accepted rest) : Except ReadError (List Setting)).map
          (·.foldl Setting.apply base)) = (accepted rest).map (·.foldl Setting.apply (s.apply base)) := by
        cases accepted rest <;> rfl
      refine (iff_of_eq (congrArg (· = Except.ok o) hstep)).trans
        ((ih hrest (s.apply base)).trans (forall_congr' fun f => ?_))
      by_cases hf : f = g
      · subst hf
        rw [lookup_eq_none hg, List.lookup_cons_self, Gives, Gives, setting_apply, hfield, if_pos rfl,
          haccept, Except.ok.injEq, eq_comm]
      · rw [List.lookup_cons, beq_eq_false_iff_ne.2 hf]
        cases rest.lookup f with
        | none => rw [Gives, Gives, setting_apply, hfield, if_neg hf]
        | some y => rfl

/-! ### Options from a value -/

/-- The values that options are read from: objects, and arrays with at most one item for each field. -/
def Readable : Json.Value → Prop
  | .object _ => True
  | .array items => items.length ≤ Field.positional.length
  | _ => False

/-- What a value has for a field: a member by its name, or an item by its position. -/
def given? : Json.Value → Field → Option Json.Value
  | .object members, f => Json.Value.member? members f.key
  | .array items, f => items[Field.positional.idxOf f]?
  | _, _ => none

/-- Fields with what was found for them, as far as something was. -/
def foundFor (fields : List Field) (g : Field → Option Found) : List (Field × Found) :=
  fields.filterMap fun f => (g f).map fun x => (f, x)

theorem lookup_foundFor {fields : List Field} (hf : f ∈ fields) (g : Field → Option Found) :
    (foundFor fields g).lookup f = g f := by
  have hlookup (rest : List Field) : (foundFor rest g).lookup f = if f ∈ rest then g f else none := by
    induction rest with
    | nil => rfl
    | cons k rest ih =>
      rw [foundFor] at ih ⊢
      cases hk : g k with
      | none =>
        rw [List.filterMap_cons_none (by rw [hk]; rfl), ih]
        by_cases hfk : f = k
        · subst hfk
          simp [hk]
        · simp [hfk]
      | some x =>
        rw [List.filterMap_cons_some (by rw [hk]; rfl), List.lookup_cons]
        by_cases hfk : f = k
        · subst hfk
          simp [hk]
        · simp [beq_eq_false_iff_ne.2 hfk, hfk, ih]
  rw [hlookup, if_pos hf]

theorem map_fst_foundFor (fields : List Field) (g : Field → Option Found) :
    (foundFor fields g).map (·.1) = fields.filter fun f => (g f).isSome := by
  induction fields with
  | nil => rfl
  | cons k rest ih =>
    rw [foundFor] at ih ⊢
    cases hk : g k <;> simp [hk, ih]

/-- If all fields are asked for once, their order makes no difference. -/
theorem accepted_foundFor_iff {fields : List Field} (hnodup : fields.Nodup) (hall : ∀ f, f ∈ fields)
    (g : Field → Option Found) (o : Options) :
    (accepted (foundFor fields g)).map ofSettings = .ok o ↔ ∀ f, o.Gives {} f (g f) := by
  have hfields : ((foundFor fields g).map (·.1)).Nodup := by
    rw [map_fst_foundFor]
    exact List.filter_sublist.nodup hnodup
  refine (foldl_accepted_iff hfields {} o).trans (forall_congr' fun f => ?_)
  rw [lookup_foundFor (hall f)]

/-- What was found may be taken off the values before their fields accept them. -/
theorem accepted_map (given : List (Field × Json.Value)) :
    accepted (given.map fun (f, v) => (f, Found.ofValue v)) =
      given.mapM fun (f, v) => f.accept (.ofValue v) := by
  rw [accepted, List.mapM_map]
  rfl

theorem settingsOfMembers_eq (members : List (String × Json.Value)) :
    settingsOfMembers members =
      accepted (foundFor Field.sorted fun f =>
        (Json.Value.member? members f.key).map Found.ofValue) := by
  rw [settingsOfMembers, ← accepted_map, List.map_filterMap, foundFor]
  simp only [Option.map_map]
  rfl

/-- Fields with the items of their positions are fields with what is found there. -/
theorem zip_positional {α : Type} (items : List α) :
    Field.positional.zip items =
      Field.positional.filterMap fun f => items[Field.positional.idxOf f]?.map fun x => (f, x) := by
  match items with
  | [] => rfl
  | [a] => rfl
  | [a, b] => rfl
  | [a, b, c] => rfl
  | a :: b :: c :: d :: rest => rfl

theorem settingsOfItems_eq_ok_iff (items : List Json.Value) (settings : List Setting) :
    settingsOfItems items = .ok settings ↔
      items.length ≤ Field.positional.length ∧
        accepted (foundFor Field.positional fun f =>
          items[Field.positional.idxOf f]?.map Found.ofValue) = .ok settings := by
  have hfound : (foundFor Field.positional fun f => items[Field.positional.idxOf f]?.map Found.ofValue) =
      (Field.positional.zip items).map fun (f, v) => (f, Found.ofValue v) := by
    simp only [← List.getElem?_map]
    rw [foundFor, ← zip_positional, List.zip_map_right]
    rfl
  rw [hfound, accepted_map, settingsOfItems, Except.bind_eq_ok_iff]
  constructor
  · rintro ⟨all, hall, h⟩
    split at h
    · cases h
    · rename_i hlength
      cases h
      exact ⟨Nat.not_lt.1 hlength, hall⟩
  · rintro ⟨hlength, hall⟩
    exact ⟨settings, hall, if_neg (Nat.not_lt.2 hlength)⟩

/-- Reading options from a value: each field is the one that the value has, or its default. -/
theorem ofValue_eq_ok_iff (v : Json.Value) (o : Options) :
    ofValue v = .ok o ↔ Readable v ∧ ∀ f, o.Gives {} f ((given? v f).map Found.ofValue) := by
  cases v with
  | object members =>
    have hiff := accepted_foundFor_iff (show Field.sorted.Nodup by decide)
      (fun f => by cases f <;> decide) (fun f => (Json.Value.member? members f.key).map Found.ofValue) o
    rw [← settingsOfMembers_eq] at hiff
    exact ⟨fun h => ⟨trivial, hiff.1 h⟩, fun h => hiff.2 h.2⟩
  | array items =>
    have hiff := accepted_foundFor_iff (show Field.positional.Nodup by decide)
      (fun f => by cases f <;> decide) (fun f => items[Field.positional.idxOf f]?.map Found.ofValue) o
    rw [Except.map_eq_ok_iff] at hiff
    rw [ofValue, Except.map_eq_ok_iff, Readable]
    simp only [settingsOfItems_eq_ok_iff, and_assoc, exists_and_left]
    exact and_congr_right fun _ => hiff
  | _ => exact iff_of_false (fun h => by cases h) fun h => h.1

end SaveAs.Options
