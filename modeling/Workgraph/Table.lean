/-!
# Tables

Finite maps from text keys, kept as lists of entries in increasing order of keys. Two tables with
the same entries are the same list, and listing a table gives its keys in code point order.

## Main definitions

- `Table`: entries by key
- `Table.get?`, `Table.insert`, `Table.erase`: look-up, writing one entry, removing one
- `Table.ofList`: a table from entries in any order, where the last entry of a key wins
-/

namespace Workgraph

/-- Entries by key. -/
abbrev Table (α : Type) := List (String × α)

namespace Table

variable {α : Type}

def get? (t : Table α) (key : String) : Option α :=
  (t.find? (·.1 == key)).map (·.2)

def contains (t : Table α) (key : String) : Bool := t.any (·.1 == key)

/-- The table with one entry written, in place of the key's earlier one if there is any. -/
def insert : Table α → String → α → Table α
  | [], key, value => [(key, value)]
  | (k, v) :: rest, key, value =>
    if k == key then (key, value) :: rest
    else if key < k then (key, value) :: (k, v) :: rest
    else (k, v) :: insert rest key value

/-- The table without the entry of a key. -/
def erase (t : Table α) (key : String) : Table α := t.filter (·.1 != key)

/-- A table from entries in any order; of several entries of a key the last one counts. -/
def ofList (entries : List (String × α)) : Table α :=
  entries.foldl (fun t e => t.insert e.1 e.2) []

/-- The table with every entry of another written over it. -/
def merge (base patch : Table α) : Table α :=
  patch.foldl (fun t e => t.insert e.1 e.2) base

def keys (t : Table α) : List String := t.map (·.1)

/-- The table with a function applied to every value. -/
def mapValues {β : Type} (f : α → β) (t : Table α) : Table β := t.map fun e => (e.1, f e.2)

/-- The entry written last is the one found under its key. -/
@[simp] theorem get?_insert_self (t : Table α) (key : String) (value : α) :
    (t.insert key value).get? key = some value := by
  induction t with
  | nil => simp [insert, get?]
  | cons e rest ih =>
    obtain ⟨k, v⟩ := e
    by_cases h : k = key
    · simp [insert, get?, h]
    · by_cases hlt : key < k
      · simp [insert, get?, h, hlt]
      · simp only [get?] at ih
        simp [insert, get?, h, hlt, ih]

/-- Writing one entry leaves every other key alone. -/
theorem get?_insert_of_ne {t : Table α} {key other : String} (value : α) (h : other ≠ key) :
    (t.insert key value).get? other = t.get? other := by
  induction t with
  | nil => simp [insert, get?, Ne.symm h]
  | cons e rest ih =>
    obtain ⟨k, v⟩ := e
    by_cases hk : k = key
    · subst hk
      simp [insert, get?, Ne.symm h]
    · by_cases hlt : key < k
      · simp [insert, get?, hk, hlt, Ne.symm h]
      · simp only [get?] at ih
        by_cases ho : k = other
        · subst ho
          simp [insert, get?, hk, hlt]
        · simp [insert, get?, hk, hlt, ho, ih]

@[simp] theorem get?_erase_self (t : Table α) (key : String) : (t.erase key).get? key = none := by
  simp [erase, get?]

/-- Removing one entry leaves every other key alone. -/
theorem get?_erase_of_ne {t : Table α} {key other : String} (h : other ≠ key) :
    (t.erase key).get? other = t.get? other := by
  unfold erase get?
  rw [List.find?_filter]
  congr 2
  funext entry
  by_cases he : entry.1 = other
  · simp [he, h]
  · simp [he]

end Table

end Workgraph
