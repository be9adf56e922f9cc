/-!
# Dictionaries

Values under names, listed in ascending order of the names.

## Main definitions

* `Dictionary.insert` — sets the value under a name.
* `Dictionary.find?` — the value under a name.
* `Dictionary.Ascending` — the lists in which every name comes before the next.
-/

namespace JobDispatch

namespace Dictionary

variable {α : Type}

/-- Sets the value under a name; the names stay in order. -/
def insert (name : String) (value : α) : List (String × α) → List (String × α)
  | [] => [(name, value)]
  | (n, v) :: r =>
    if name < n then (name, value) :: (n, v) :: r
    else if name = n then (name, value) :: r
    else (n, v) :: insert name value r

/-- The value under a name. -/
def find? (name : String) : List (String × α) → Option α
  | [] => none
  | (n, v) :: r => if n = name then some v else find? name r

/-- The names, in order. -/
def names (d : List (String × α)) : List String := d.map Prod.fst

/-- Whether there is a value under a name. -/
def contains (name : String) (d : List (String × α)) : Bool := (find? name d).isSome

/-- The dictionary of the given values; of two under one name the later counts. -/
def ofList (fs : List (String × α)) : List (String × α) :=
  fs.foldl (fun d f => insert f.1 f.2 d) []

/-- Every name comes before the next. -/
def Ascending : List String → Prop
  | a :: b :: r => a < b ∧ Ascending (b :: r)
  | _ => True

@[simp] theorem find?_nil (name : String) : find? name ([] : List (String × α)) = none := rfl

@[simp] theorem ofList_nil : ofList ([] : List (String × α)) = [] := rfl

/-- A value that has been set is found. -/
theorem find?_insert_self (name : String) (value : α) (d : List (String × α)) :
    find? name (insert name value d) = some value := by
  induction d with
  | nil => simp [insert, find?]
  | cons f d ih =>
    obtain ⟨n, v⟩ := f
    by_cases hlt : name < n
    · simp [insert, find?, hlt]
    · by_cases heq : name = n
      · simp [insert, find?, heq]
      · have hne : ¬ n = name := fun h => heq h.symm
        simp [insert, find?, hlt, heq, hne, ih]

/-- Setting a value leaves those under other names. -/
theorem find?_insert_of_ne {name other : String} (h : other ≠ name) (value : α)
    (d : List (String × α)) : find? other (insert name value d) = find? other d := by
  have h' : ¬ name = other := fun e => h e.symm
  induction d with
  | nil => simp [insert, find?, h']
  | cons f d ih =>
    obtain ⟨n, v⟩ := f
    by_cases hlt : name < n
    · simp [insert, find?, hlt, h']
    · by_cases heq : name = n
      · subst heq
        simp [insert, find?, h']
      · simp only [insert, hlt, heq, ↓reduceIte, find?, ih]

/-- There is a value under each name that is listed, and under no other. -/
theorem contains_names (name : String) (d : List (String × α)) :
    (names d).contains name = contains name d := by
  induction d with
  | nil => rfl
  | cons f d ih =>
    obtain ⟨n, v⟩ := f
    show ((name == n) || (names d).contains name) = (if n = name then some v else find? name d).isSome
    by_cases hn : n = name
    · rw [if_pos hn, beq_iff_eq.mpr hn.symm]
      rfl
    · rw [if_neg hn, beq_false_of_ne (Ne.symm hn), ih]
      rfl

end Dictionary

end JobDispatch
