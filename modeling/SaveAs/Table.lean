/-!
# Tables

A table maps names to values and remembers the order in which the names came in. The rest of the
library uses it through `get?`: a write is seen at its own name and nowhere else.
-/

namespace SaveAs

/-- Names with their values, in the order of first entry. -/
structure Table (α : Type) where
  entries : List (String × α) := []
  deriving Repr

namespace Table

variable {α : Type}

instance : EmptyCollection (Table α) := ⟨{}⟩

def get? (t : Table α) (name : String) : Option α :=
  t.entries.lookup name

def contains (t : Table α) (name : String) : Bool :=
  (t.get? name).isSome

private def put (name : String) (a : α) : List (String × α) → List (String × α)
  | [] => [(name, a)]
  | e :: rest => if e.1 = name then (name, a) :: rest else e :: put name a rest

/-- Puts a value under a name: in the place of the earlier one, or at the end. -/
def set (t : Table α) (name : String) (a : α) : Table α :=
  ⟨put name a t.entries⟩

def erase (t : Table α) (name : String) : Table α :=
  ⟨t.entries.filter (·.1 ≠ name)⟩

def names (t : Table α) : List String :=
  t.entries.map (·.1)

def ofList (entries : List (String × α)) : Table α :=
  entries.foldl (fun (t : Table α) (e : String × α) => t.set e.1 e.2) ∅

private theorem lookup_put (entries : List (String × α)) (name key : String) (a : α) :
    (put name a entries).lookup key = if key = name then some a else entries.lookup key := by
  induction entries with
  | nil => by_cases h : key = name <;> simp [put, List.lookup_cons, h, beq_eq_false_iff_ne.2]
  | cons e rest ih =>
    obtain ⟨n, b⟩ := e
    by_cases hn : n = name
    · subst hn
      by_cases h : key = n <;> simp [put, List.lookup_cons, h, beq_eq_false_iff_ne.2]
    · by_cases h : key = n
      · subst h
        simp [put, hn]
      · have hb : (key == n) = false := beq_eq_false_iff_ne.2 h
        simp [put, hn, List.lookup_cons, hb, ih]

/-- A write is seen at its own name and nowhere else. -/
theorem get?_set (t : Table α) (name key : String) (a : α) :
    (t.set name a).get? key = if key = name then some a else t.get? key :=
  lookup_put t.entries name key a

@[simp] theorem get?_set_self (t : Table α) (name : String) (a : α) :
    (t.set name a).get? name = some a := by
  simp [get?_set]

theorem get?_set_of_ne (t : Table α) {name key : String} (a : α) (h : key ≠ name) :
    (t.set name a).get? key = t.get? key := by
  simp [get?_set, h]

@[simp] theorem get?_empty (key : String) : (∅ : Table α).get? key = none := rfl

theorem get?_erase (t : Table α) (name key : String) :
    (t.erase name).get? key = if key = name then none else t.get? key := by
  obtain ⟨entries⟩ := t
  simp only [erase, get?]
  induction entries with
  | nil => simp
  | cons e rest ih =>
    obtain ⟨n, b⟩ := e
    by_cases hn : n = name
    · subst hn
      by_cases h : key = n
      · simpa [h] using ih
      · simpa [h, List.lookup_cons, beq_eq_false_iff_ne.2 h] using ih
    · by_cases h : key = n
      · subst h
        simp [hn]
      · have hb : (key == n) = false := beq_eq_false_iff_ne.2 h
        simpa [hn, List.lookup_cons, hb] using ih

theorem get?_eq_none_iff (t : Table α) (name : String) : t.get? name = none ↔ name ∉ t.names := by
  rw [get?, List.lookup_eq_none_iff, names, List.mem_map]
  constructor
  · rintro h ⟨e, he, rfl⟩
    simpa using h e he
  · intro h e he
    exact bne_iff_ne.2 fun hname => h ⟨e, he, hname.symm⟩

private theorem map_put (entries : List (String × α)) (name : String) (a : α) :
    (put name a entries).map (·.1) =
      if name ∈ entries.map (·.1) then entries.map (·.1) else entries.map (·.1) ++ [name] := by
  induction entries with
  | nil => rfl
  | cons e rest ih =>
    by_cases h : e.1 = name
    · simp [put, h]
    · simp only [put, if_neg h, List.map_cons, ih, List.mem_cons, Ne.symm h, false_or]
      split <;> rfl

/-- A name that is there already keeps its place. -/
theorem names_set (t : Table α) (name : String) (a : α) :
    (t.set name a).names = if name ∈ t.names then t.names else t.names ++ [name] :=
  map_put t.entries name a

end Table

end SaveAs
