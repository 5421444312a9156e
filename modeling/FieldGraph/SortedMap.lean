/-!
# Sorted maps

Entries under distinct names, in ascending order of names.
-/
namespace FieldGraph

structure SortedMap (α : Type) where
  entries : List (String × α)
  ascending : entries.Pairwise (fun a b => a.1 < b.1)

namespace SortedMap

variable {α : Type}

def insertEntry (key : String) (value : α) : List (String × α) → List (String × α)
  | [] => [(key, value)]
  | (k, v) :: rest =>
    if key < k then (key, value) :: (k, v) :: rest
    else if key = k then (key, value) :: rest
    else (k, v) :: insertEntry key value rest

theorem mem_insertEntry {key : String} {value : α} {e : String × α} {entries : List (String × α)}
    (h : e ∈ insertEntry key value entries) : e = (key, value) ∨ e ∈ entries := by
  induction entries with
  | nil => simpa [insertEntry] using h
  | cons head rest ih =>
    obtain ⟨k, v⟩ := head
    simp only [insertEntry] at h
    split at h
    · simpa using h
    · split at h
      · rcases List.mem_cons.1 h with h | h
        · exact .inl h
        · exact .inr (List.mem_cons_of_mem _ h)
      · rcases List.mem_cons.1 h with h | h
        · exact .inr (h ▸ List.mem_cons_self)
        · exact (ih h).imp_right (List.mem_cons_of_mem _)

theorem insertEntry_ascending {key : String} {value : α} {entries : List (String × α)}
    (h : entries.Pairwise (fun a b => a.1 < b.1)) :
    (insertEntry key value entries).Pairwise (fun a b => a.1 < b.1) := by
  induction entries with
  | nil => simp [insertEntry]
  | cons head rest ih =>
    obtain ⟨k, v⟩ := head
    obtain ⟨hk, hrest⟩ := List.pairwise_cons.1 h
    simp only [insertEntry]
    split
    · rename_i lt
      refine List.pairwise_cons.2 ⟨fun e he => ?_, h⟩
      rcases List.mem_cons.1 he with he | he
      · exact he ▸ lt
      · exact String.lt_trans lt (hk e he)
    · split
      · rename_i eq
        exact List.pairwise_cons.2 ⟨fun e he => eq ▸ hk e he, hrest⟩
      · rename_i notLt ne
        refine List.pairwise_cons.2 ⟨fun e he => ?_, ih hrest⟩
        rcases mem_insertEntry he with he | he
        · rw [he]
          refine Decidable.byContradiction fun notGt => ne ?_
          exact String.le_antisymm (String.not_lt.1 notGt) (String.not_lt.1 notLt)
        · exact hk e he

def empty : SortedMap α := ⟨[], .nil⟩

instance : Inhabited (SortedMap α) := ⟨empty⟩

def insert (m : SortedMap α) (key : String) (value : α) : SortedMap α :=
  ⟨insertEntry key value m.entries, insertEntry_ascending m.ascending⟩

/-- The map of the pairs; the last of equal keys counts. -/
def ofList (pairs : List (String × α)) : SortedMap α :=
  pairs.foldl (fun m (key, value) => m.insert key value) empty

def erase (m : SortedMap α) (key : String) : SortedMap α :=
  ⟨m.entries.filter (fun e => e.1 != key), m.ascending.sublist List.filter_sublist⟩

def get? (m : SortedMap α) (key : String) : Option α := m.entries.lookup key

def contains (m : SortedMap α) (key : String) : Bool := (m.get? key).isSome

def size (m : SortedMap α) : Nat := m.entries.length

def isEmpty (m : SortedMap α) : Bool := m.entries.isEmpty

end SortedMap

end FieldGraph
