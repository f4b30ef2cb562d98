/-
  Tables: values under names, in the order in which the names first came.

  A name has one value.  Giving it another one changes the value where it stands, so the order of
  a table tells when each name was new, and nothing about later changes.
-/

namespace Transclusion

/-- Values under names. -/
abbrev Table (α : Type) := List (String × α)

namespace Table

variable {α : Type}

/-- The value under `name`. -/
def get? (name : String) (table : Table α) : Option α := table.lookup name

/-- Whether there is a value under `name`. -/
def has (name : String) (table : Table α) : Bool := (table.get? name).isSome

/-- The names, in order. -/
def names (table : Table α) : List String := table.map Prod.fst

/-- The table with `value` under `name`: in the place of the value that was there, or else last. -/
def assign (name : String) (value : α) : Table α → Table α
  | [] => [(name, value)]
  | (n, v) :: later => if name == n then (n, value) :: later else (n, v) :: assign name value later

/-- The table without `name`. -/
def erase (name : String) (table : Table α) : Table α := table.filter fun entry => entry.1 != name

@[simp] theorem get?_nil (name : String) : get? name ([] : Table α) = none := rfl

theorem get?_cons (name n : String) (v : α) (later : Table α) :
    get? name ((n, v) :: later) = if name = n then some v else get? name later := by
  by_cases h : name = n
  · simp [get?, h]
  · have hne : (name == n) = false := by simp [h]
    simp [get?, List.lookup_cons, h, hne]

/-- What was assigned is found, and the other names keep their values. -/
theorem get?_assign (key name : String) (value : α) (table : Table α) :
    (table.assign name value).get? key = if key = name then some value else table.get? key := by
  induction table with
  | nil => simp [assign, get?_cons]
  | cons entry later ih =>
    obtain ⟨n, v⟩ := entry
    by_cases hn : name = n
    · subst hn
      by_cases hk : key = name <;> simp [assign, get?_cons, hk]
    · by_cases hk : key = n
      · have : ¬ key = name := fun h => hn (h ▸ hk)
        simp [assign, get?_cons, hn, hk, Ne.symm hn]
      · simp [assign, get?_cons, hn, hk, ih]

/-- A name that was new is one entry more. -/
theorem length_assign_of_new {name : String} (value : α) {table : Table α}
    (h : table.get? name = none) : (table.assign name value).length = table.length + 1 := by
  induction table with
  | nil => rfl
  | cons entry later ih =>
    obtain ⟨n, v⟩ := entry
    rw [get?_cons] at h
    split at h
    · exact absurd h nofun
    · next hne =>
      have hbeq : (name == n) = false := by simp [hne]
      rw [assign, hbeq, if_neg nofun, List.length_cons, ih h, List.length_cons]

end Table

end Transclusion
