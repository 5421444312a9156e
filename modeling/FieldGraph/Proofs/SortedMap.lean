import FieldGraph.PropertyMap
import Mathlib.Data.List.Induction
import Mathlib.Data.List.Nodup

/-!
# Lookup in sorted maps

What is found under a key after insertions, and that the entries of a map are what is found in it.
-/
namespace FieldGraph

namespace SortedMap

variable {α : Type}

theorem lookup_cons (key k : String) (v : α) (rest : List (String × α)) :
    List.lookup key ((k, v) :: rest) = if key = k then some v else List.lookup key rest := by
  by_cases h : key = k
  · simp [h]
  · have hne : (key == k) = false := by simpa using h
    simp [List.lookup_cons, h, hne]

theorem lookup_insertEntry (key other : String) (value : α) (entries : List (String × α)) :
    List.lookup other (insertEntry key value entries) =
      if other = key then some value else List.lookup other entries := by
  induction entries with
  | nil => rw [insertEntry, lookup_cons]
  | cons head rest ih =>
    obtain ⟨k, v⟩ := head
    rw [insertEntry]
    by_cases hlt : key < k
    · rw [if_pos hlt, lookup_cons]
    · rw [if_neg hlt]
      by_cases heq : key = k
      · subst heq
        rw [if_pos rfl, lookup_cons, lookup_cons]
        by_cases hother : other = key <;> simp [hother]
      · rw [if_neg heq, lookup_cons, lookup_cons, ih]
        by_cases hother : other = key
        · subst hother
          rw [if_neg heq, if_pos rfl, if_pos rfl]
        · rw [if_neg hother, if_neg hother]

theorem get?_insert (m : SortedMap α) (key other : String) (value : α) :
    (m.insert key value).get? other = if other = key then some value else m.get? other :=
  lookup_insertEntry key other value m.entries

theorem get?_ofList (pairs : List (String × α)) (key : String) :
    (ofList pairs).get? key = pairs.reverse.lookup key := by
  induction pairs using List.reverseRecOn with
  | nil => rfl
  | append_singleton pairs pair ih =>
    obtain ⟨k, v⟩ := pair
    have hlast : ofList (pairs ++ [(k, v)]) = (ofList pairs).insert k v := by
      rw [ofList, List.foldl_append]
      rfl
    rw [hlast, get?_insert, ih, List.reverse_append, List.reverse_singleton,
      List.singleton_append, lookup_cons]

theorem lookup_eq_some_of_nodup {pairs : List (String × α)} (h : (pairs.map Prod.fst).Nodup)
    {key : String} {value : α} :
    pairs.lookup key = some value ↔ (key, value) ∈ pairs := by
  induction pairs with
  | nil => simp
  | cons pair pairs ih =>
    obtain ⟨k, v⟩ := pair
    rw [List.map_cons, List.nodup_cons] at h
    rw [lookup_cons, List.mem_cons, Prod.mk.injEq]
    by_cases hk : key = k
    · have hnot : (key, value) ∉ pairs := fun hmem =>
        h.1 (List.mem_map.mpr ⟨(key, value), hmem, hk⟩)
      rw [if_pos hk, Option.some.injEq]
      constructor
      · rintro rfl
        exact .inl ⟨hk, rfl⟩
      · rintro (⟨_, rfl⟩ | hmem)
        · rfl
        · exact absurd hmem hnot
    · simp [hk, ih h.2]

theorem keys_nodup (m : SortedMap α) : (m.entries.map Prod.fst).Nodup := by
  rw [List.Nodup, List.pairwise_map]
  exact m.ascending.imp fun h => String.ne_of_lt h

theorem mem_entries_iff {m : SortedMap α} {key : String} {value : α} :
    (key, value) ∈ m.entries ↔ m.get? key = some value :=
  (lookup_eq_some_of_nodup m.keys_nodup).symm

theorem get?_ofList_of_nodup {pairs : List (String × α)} (h : (pairs.map Prod.fst).Nodup)
    {key : String} {value : α} :
    (ofList pairs).get? key = some value ↔ (key, value) ∈ pairs := by
  have hreverse : (pairs.reverse.map Prod.fst).Nodup := by
    rw [List.map_reverse]
    exact List.nodup_reverse.mpr h
  rw [get?_ofList, lookup_eq_some_of_nodup hreverse, List.mem_reverse]

end SortedMap

theorem PropertyMap.includes_ofList {m : PropertyMap} {pairs : List (String × Value)}
    (h : (pairs.map Prod.fst).Nodup) :
    m.includes (.ofList pairs) = true ↔
      ∀ p ∈ pairs, ∃ value, m.get? p.1 = some value ∧ value.same p.2 = true := by
  simp only [includes, List.all_eq_true, Option.any_eq_true]
  constructor
  · rintro hall ⟨key, value⟩ hp
    exact hall (key, value)
      (SortedMap.mem_entries_iff.mpr ((SortedMap.get?_ofList_of_nodup h).mpr hp))
  · rintro hall ⟨key, value⟩ hentry
    exact hall (key, value)
      ((SortedMap.get?_ofList_of_nodup h).mp (SortedMap.mem_entries_iff.mp hentry))

end FieldGraph
