/-!
# Tables

A table holds at most one value per key. `put` replaces the value of a key it already holds and
otherwise adds the key at the end, so the keys keep the order in which they first came. The two
facts that the rest of the library uses are `get?_put_self` and `get?_put_of_ne`.
-/

namespace Feedkeeper

/-- Values by key, in the order in which the keys first came. -/
structure Table (β : Type) where
  entries : List (String × β) := []

namespace Table

variable {β : Type}

/-- The value of the first entry with the key. -/
def find (key : String) : List (String × β) → Option β
  | [] => none
  | entry :: rest => if entry.1 = key then some entry.2 else find key rest

/-- The entries with the key's value set. -/
def set (key : String) (value : β) : List (String × β) → List (String × β)
  | [] => [(key, value)]
  | entry :: rest => if entry.1 = key then (key, value) :: rest else entry :: set key value rest

/-- The value of a key. -/
def get? (table : Table β) (key : String) : Option β :=
  find key table.entries

/-- The table with the key's value set. -/
def put (table : Table β) (key : String) (value : β) : Table β :=
  ⟨set key value table.entries⟩

/-- The values, in the order of their keys. -/
def values (table : Table β) : List β :=
  table.entries.map (·.2)

/-- The value that was set is found. -/
theorem find_set_self (key : String) (value : β) (entries : List (String × β)) :
    find key (set key value entries) = some value := by
  induction entries with
  | nil => simp [set, find]
  | cons entry rest ih =>
    by_cases h : entry.1 = key
    · simp [set, find, h]
    · simp [set, find, h, ih]

/-- Setting the value of a key leaves those of other keys. -/
theorem find_set_of_ne {key other : String} (h : other ≠ key) (value : β)
    (entries : List (String × β)) : find other (set key value entries) = find other entries := by
  induction entries with
  | nil => simp [set, find, Ne.symm h]
  | cons entry rest ih =>
    by_cases hk : entry.1 = key
    · have ho : entry.1 ≠ other := fun e => h (e.symm.trans hk)
      simp [set, find, hk, Ne.symm h]
    · simp [set, find, hk, ih]

/-- The value that was put is got. -/
@[simp] theorem get?_put_self (table : Table β) (key : String) (value : β) :
    (table.put key value).get? key = some value :=
  find_set_self key value table.entries

/-- Putting a value leaves those of other keys. -/
theorem get?_put_of_ne {key other : String} (h : other ≠ key) (table : Table β) (value : β) :
    (table.put key value).get? other = table.get? other :=
  find_set_of_ne h value table.entries

end Table

end Feedkeeper
