/-!
# Dictionaries in key order

A dictionary is a list of texts and values in rising order of the texts; `put` keeps the order and replaces.
Main statements: `find?_put_self` and `find?_put_of_ne` say what is found after a `put`, `find?_filter_of_ne` what
is found without another key.
-/

namespace CatalogSync.Text

/-- Texts with values. -/
abbrev Dict (α : Type) := List (String × α)

namespace Dict

variable {α : Type}

def find? (d : Dict α) (key : String) : Option α :=
  match d with
  | [] => none
  | (k, v) :: r => if k = key then some v else find? r key

/-- Gives a key a value, in place of a former one. -/
def put (d : Dict α) (key : String) (value : α) : Dict α :=
  match d with
  | [] => [(key, value)]
  | (k, v) :: r =>
    if k = key then (key, value) :: r
    else if key < k then (key, value) :: (k, v) :: r
    else (k, v) :: put r key value

/-- A dictionary from pairs, a later pair replacing an earlier one of the same key. -/
def ofList (pairs : List (String × α)) : Dict α := pairs.foldl (fun d (k, v) => d.put k v) []

@[simp] theorem find?_nil (key : String) : find? ([] : Dict α) key = none := rfl

@[simp] theorem find?_put_self (d : Dict α) (key : String) (value : α) :
    (d.put key value).find? key = some value := by
  induction d with
  | nil => simp [put, find?]
  | cons p r ih =>
    obtain ⟨k, v⟩ := p
    by_cases h : k = key
    · simp [put, find?, h]
    · by_cases hl : key < k <;> simp [put, find?, h, hl, ih]

theorem find?_put_of_ne (d : Dict α) {key other : String} (value : α) (h : other ≠ key) :
    (d.put key value).find? other = d.find? other := by
  induction d with
  | nil => simp [put, find?, Ne.symm h]
  | cons p r ih =>
    obtain ⟨k, v⟩ := p
    by_cases hk : k = key
    · subst hk; simp [put, find?, Ne.symm h]
    · by_cases hl : key < k <;> simp [put, find?, hk, hl, ih, Ne.symm h]

theorem find?_filter_of_ne (d : Dict α) {key other : String} (h : other ≠ key) :
    find? (d.filter fun (k, _) => k ≠ key) other = d.find? other := by
  induction d with
  | nil => rfl
  | cons p r ih =>
    obtain ⟨k, v⟩ := p
    by_cases hk : k = key
    · subst hk
      rw [List.filter_cons_of_neg (by simp), ih]
      simp [find?, Ne.symm h]
    · rw [List.filter_cons_of_pos (by simp [hk])]
      simp only [find?]
      rw [ih]

end Dict

end CatalogSync.Text
