/-!
# Tables keyed by strings

A table holds at most one value for a key and lists its entries in ascending order of the keys.

## Main Definitions

* `Table` — a table, with the order of its keys as a field
* `Table.find?`, `Table.insert`, `Table.erase` — look-up and change

## Main Statements

* `Table.find?_insert_self`, `Table.find?_insert_of_ne` — what an insertion changes
-/

namespace RuleCanon

/-- Entries in ascending order of their keys. -/
structure Table (α : Type) where
  /-- The entries. -/
  entries : List (String × α) := []
  /-- Each key comes before all later ones, so none occurs twice. -/
  ascending : entries.Pairwise (·.1 < ·.1) := by simp

namespace Table

variable {α : Type}

instance : EmptyCollection (Table α) := ⟨{}⟩

instance : Inhabited (Table α) := ⟨∅⟩

/-- Puts an entry at its place, instead of the entry with the same key if there is one. -/
def insertEntry (key : String) (value : α) : List (String × α) → List (String × α)
  | [] => [(key, value)]
  | (k, v) :: rest =>
    if key < k then (key, value) :: (k, v) :: rest
    else if key = k then (key, value) :: rest
    else (k, v) :: insertEntry key value rest

theorem fst_of_mem_insertEntry {key : String} {value : α} {l : List (String × α)}
    {e : String × α} (h : e ∈ insertEntry key value l) : e.1 = key ∨ e ∈ l := by
  induction l with
  | nil => exact .inl (by simp_all [insertEntry])
  | cons head rest ih =>
    rw [insertEntry] at h
    split at h
    · rcases List.mem_cons.1 h with rfl | h
      · exact .inl rfl
      · exact .inr h
    · split at h
      · rcases List.mem_cons.1 h with rfl | h
        · exact .inl rfl
        · exact .inr (List.mem_cons_of_mem _ h)
      · rcases List.mem_cons.1 h with rfl | h
        · exact .inr List.mem_cons_self
        · exact (ih h).imp_right (List.mem_cons_of_mem _)

theorem pairwise_insertEntry {key : String} {value : α} {l : List (String × α)}
    (h : l.Pairwise (·.1 < ·.1)) : (insertEntry key value l).Pairwise (·.1 < ·.1) := by
  induction l with
  | nil => simp [insertEntry]
  | cons head rest ih =>
    obtain ⟨hhead, hrest⟩ := List.pairwise_cons.1 h
    rw [insertEntry]
    split
    · next hlt =>
      refine List.pairwise_cons.2 ⟨fun e he => ?_, h⟩
      rcases List.mem_cons.1 he with rfl | he
      · exact hlt
      · exact String.lt_trans hlt (hhead e he)
    · split
      · next heq =>
        exact List.pairwise_cons.2 ⟨fun e he => heq ▸ hhead e he, hrest⟩
      · next hlt hne =>
        refine List.pairwise_cons.2 ⟨fun e he => ?_, ih hrest⟩
        rcases fst_of_mem_insertEntry he with hkey | he
        · rw [hkey]
          exact Std.lt_of_le_of_ne (String.not_lt.1 hlt) fun h => hne h.symm
        · exact hhead e he

/-- The value for a key. -/
def find? (t : Table α) (key : String) : Option α := t.entries.lookup key

/-- Whether the table has an entry with the key. -/
def contains (t : Table α) (key : String) : Bool := (t.find? key).isSome

/-- Sets the value for a key. -/
def insert (t : Table α) (key : String) (value : α) : Table α where
  entries := insertEntry key value t.entries
  ascending := pairwise_insertEntry t.ascending

/-- Removes the entry with the key. -/
def erase (t : Table α) (key : String) : Table α where
  entries := t.entries.filter (·.1 != key)
  ascending := t.ascending.filter _

/-- The table of the given entries, of which a later one replaces an earlier one with its key. -/
def ofList (l : List (String × α)) : Table α := l.foldl (fun t e => t.insert e.1 e.2) ∅

/-- The keys in ascending order. -/
def keys (t : Table α) : List String := t.entries.map (·.1)

/-- The values in the order of their keys. -/
def values (t : Table α) : List α := t.entries.map (·.2)

/-- The number of entries. -/
def size (t : Table α) : Nat := t.entries.length

theorem lookup_insertEntry_self (key : String) (value : α) (l : List (String × α)) :
    (insertEntry key value l).lookup key = some value := by
  induction l with
  | nil => simp [insertEntry]
  | cons head rest ih =>
    rw [insertEntry]
    split
    · simp
    · split
      · simp
      · next hne =>
        rw [List.lookup_cons, ih]
        have : (key == head.1) = false := by simpa using hne
        rw [this]

theorem lookup_insertEntry_of_ne {key other : String} (h : other ≠ key) (value : α)
    (l : List (String × α)) : (insertEntry key value l).lookup other = l.lookup other := by
  have hother : (other == key) = false := by simpa using h
  induction l with
  | nil => simp [insertEntry, List.lookup_cons, hother]
  | cons head rest ih =>
    rw [insertEntry]
    split
    · rw [List.lookup_cons, hother]
    · split
      · next heq =>
        rw [List.lookup_cons, List.lookup_cons, hother, ← heq, hother]
      · rw [List.lookup_cons, List.lookup_cons, ih]

@[simp] theorem find?_insert_self (t : Table α) (key : String) (value : α) :
    (t.insert key value).find? key = some value :=
  lookup_insertEntry_self key value t.entries

theorem find?_insert_of_ne {key other : String} (t : Table α) (h : other ≠ key) (value : α) :
    (t.insert key value).find? other = t.find? other :=
  lookup_insertEntry_of_ne h value t.entries

end Table

end RuleCanon
