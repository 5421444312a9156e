import FieldGraph.Proofs.Field.Findings
import FieldGraph.Proofs.SortedMap
import Mathlib.Data.List.Nodup

/-!
# Positions of a response

A path that leads to a finding leads to its data, as long as no two findings side by side are
reached by the same step. Errors then stand at the failed positions, each apart from all others.
-/
namespace FieldGraph

def Json.follow : Json → ResponsePath → Option Json
  | value, [] => some value
  | .object fields, .key key :: rest => do (← fields.lookup key).follow rest
  | .array items, .index i :: rest => do (← items[i]?).follow rest
  | _, _ => none

namespace Finding

/-- No two findings right below one are reached by the same step, at any depth. -/
inductive Distinct : Finding → Prop
  | intro {f : Finding} (nodup : (f.children.map Prod.fst).Nodup)
      (below : ∀ child ∈ f.children, Distinct child.2) : Distinct f

end Finding

namespace Json

theorem setField_of_not_mem {fields : List (String × Json)} {key : String}
    (h : key ∉ fields.map Prod.fst) (value : Json) :
    setField fields key value = fields ++ [(key, value)] := by
  induction fields with
  | nil => rfl
  | cons field fields ih =>
    obtain ⟨k, v⟩ := field
    simp only [List.map_cons, List.mem_cons, not_or] at h
    rw [setField, if_neg (Ne.symm h.1), ih h.2, List.cons_append]

theorem overlay_of_nodup {fields others : List (String × Json)}
    (h : ((fields ++ others).map Prod.fst).Nodup) : overlay fields others = fields ++ others := by
  induction others generalizing fields with
  | nil => rw [List.append_nil]; rfl
  | cons field others ih =>
    obtain ⟨key, value⟩ := field
    have hnew : key ∉ fields.map Prod.fst := by
      rw [List.map_append, List.nodup_append] at h
      intro hmem
      exact h.2.2 key hmem key (by simp) rfl
    have hfirst : overlay fields ((key, value) :: others) =
        overlay (setField fields key value) others := rfl
    rw [hfirst, setField_of_not_mem hnew, ih (by simpa using h), List.append_assoc]
    rfl

end Json

namespace Finding

variable {f g : Finding}

theorem keys_fieldsData (fields : List (String × Finding)) :
    (fieldsData fields).map Prod.fst = fields.map Prod.fst := by
  rw [fieldsData_eq_map, List.map_map]
  rfl

theorem steps_object (fields : List (String × Finding)) :
    (object fields).children.map Prod.fst = (fields.map Prod.fst).map PathSegment.key := by
  rw [children, List.map_map, List.map_map]
  rfl

theorem steps_list (items : List Finding) :
    (list items).children.map Prod.fst = (List.range' 0 items.length).map PathSegment.index := by
  rw [children, List.map_map, ← List.zipIdx_map_snd, List.map_map]
  rfl

theorem distinct_leaf (h : f.children = []) : f.Distinct :=
  .intro (by rw [h]; exact List.nodup_nil) (by simp [h])

theorem distinct_object {fields : List (String × Finding)} (hkeys : (fields.map Prod.fst).Nodup)
    (h : ∀ field ∈ fields, field.2.Distinct) : (object fields).Distinct := by
  constructor
  · rw [steps_object]
    exact hkeys.map fun _ _ heq => PathSegment.key.inj heq
  · intro child hchild
    obtain ⟨field, hmem, rfl⟩ := List.mem_map.mp hchild
    exact h field hmem

theorem distinct_list {items : List Finding} (h : ∀ x ∈ items, x.Distinct) :
    (list items).Distinct := by
  constructor
  · rw [steps_list]
    exact List.Nodup.map (fun _ _ heq => PathSegment.index.inj heq) List.nodup_range'
  · intro child hchild
    obtain ⟨item, hmem, rfl⟩ := List.mem_map.mp hchild
    exact h item.1 (List.fst_mem_of_mem_zipIdx hmem)

theorem data_object {fields : List (String × Finding)} (h : (fields.map Prod.fst).Nodup) :
    (object fields).data = .object (fieldsData fields) := by
  rw [data, Json.overlay_of_nodup (by rwa [List.nil_append, keys_fieldsData]), List.nil_append]

theorem follow_child (h : f.Distinct) {step : PathSegment} (hmem : (step, g) ∈ f.children)
    (path : ResponsePath) : f.data.follow (step :: path) = g.data.follow path := by
  obtain ⟨hnodup, _⟩ := h
  cases f with
  | object fields =>
    have hkeys : (fields.map Prod.fst).Nodup := by
      rw [steps_object] at hnodup
      exact hnodup.of_map
    obtain ⟨⟨key, _⟩, hfield, heq⟩ := List.mem_map.mp hmem
    cases heq
    have hlookup : (fieldsData fields).lookup key = some g.data := by
      rw [SortedMap.lookup_eq_some_of_nodup (by rwa [keys_fieldsData]), fieldsData_eq_map]
      exact List.mem_map.mpr ⟨_, hfield, rfl⟩
    rw [data_object hkeys, Json.follow, hlookup]
    rfl
  | list items =>
    obtain ⟨⟨_, i⟩, hitem, heq⟩ := List.mem_map.mp hmem
    cases heq
    have hget : (itemsData items)[i]? = some g.data := by
      rw [itemsData_eq_map, List.getElem?_map, List.mem_zipIdx_iff_getElem?.mp hitem]
      rfl
    rw [data, Json.follow, hget]
    rfl
  | typeName name => cases hmem
  | failed e => cases hmem
  | scalar value => cases hmem
  | absent => cases hmem

theorem At.follow {path : ResponsePath} (h : f.At path g) (hf : f.Distinct) :
    f.data.follow path = some g.data := by
  induction h with
  | here f => rfl
  | child hmem _ ih =>
    rw [follow_child hf hmem]
    obtain ⟨_, hbelow⟩ := hf
    exact ih (hbelow _ hmem)

theorem At.unique {h : Finding} {path : ResponsePath} (hg : f.At path g) (hh : f.At path h)
    (hf : f.Distinct) : g = h := by
  induction hg with
  | here f =>
    cases hh
    rfl
  | @child f g₁ g step path hmem _ ih =>
    obtain ⟨hnodup, hbelow⟩ := hf
    cases hh with
    | @child _ h₁ _ _ _ hmem' hrest =>
      have hsame : (step, g₁) = (step, h₁) := List.inj_on_of_nodup_map hnodup hmem hmem' rfl
      cases hsame
      exact ih hrest (hbelow _ hmem)

theorem mem_errors_iff {e : FieldError} {path : ResponsePath} :
    e ∈ f.errors path ↔ ∃ below cause, f.At below (.failed cause) ∧
      e = ⟨cause.forCaller.message, path ++ below⟩ := by
  induction f using Finding.induction generalizing path with
  | below f ih =>
    rw [errors_eq, List.mem_append]
    constructor
    · rintro (hown | hchild)
      · cases f with
        | failed cause =>
          refine ⟨[], cause, .here _, ?_⟩
          rw [List.append_nil]
          exact List.mem_singleton.mp hown
        | typeName name => cases hown
        | scalar value => cases hown
        | absent => cases hown
        | object fields => cases hown
        | list items => cases hown
      · obtain ⟨⟨step, g⟩, hmem, he⟩ := List.mem_flatMap.mp hchild
        obtain ⟨below, cause, hat, rfl⟩ := (ih _ hmem).mp he
        refine ⟨step :: below, cause, .child hmem hat, ?_⟩
        rw [List.append_assoc]
        rfl
    · rintro ⟨below, cause, hat, rfl⟩
      cases hat with
      | here => exact .inl (by rw [List.append_nil]; exact List.mem_singleton_self _)
      | @child _ g _ step rest hmem hat =>
        refine .inr (List.mem_flatMap.mpr ⟨(step, g), hmem, (ih _ hmem).mpr ⟨rest, cause, hat, ?_⟩⟩)
        rw [List.append_assoc]
        rfl

/-- Neither path is the other or leads to it. -/
def Apart (p q : ResponsePath) : Prop := ¬p <+: q ∧ ¬q <+: p

theorem apart_of_steps {path p q : ResponsePath} {a b : PathSegment} (h : a ≠ b) :
    Apart (path ++ [a] ++ p) (path ++ [b] ++ q) := by
  simp only [List.append_assoc, List.singleton_append]
  constructor
  · intro hprefix
    exact h (List.cons_prefix_cons.mp ((List.prefix_append_right_inj path).mp hprefix)).1
  · intro hprefix
    exact h (List.cons_prefix_cons.mp ((List.prefix_append_right_inj path).mp hprefix)).1.symm

theorem errors_apart (h : f.Distinct) (path : ResponsePath) :
    (f.errors path).Pairwise fun d e => Apart d.path e.path := by
  induction h generalizing path with
  | @intro f hnodup _ ih =>
    rw [errors_eq]
    have hchildren : (f.children.flatMap fun child => child.2.errors (path ++ [child.1])).Pairwise
        fun d e => Apart d.path e.path := by
      rw [List.pairwise_flatMap]
      refine ⟨fun child hchild => ih child hchild _, ?_⟩
      -- Errors below two children part at the step to the child.
      refine (List.pairwise_map.mp hnodup).imp ?_
      intro a b hsteps d hd e he
      obtain ⟨p, _, _, rfl⟩ := mem_errors_iff.mp hd
      obtain ⟨q, _, _, rfl⟩ := mem_errors_iff.mp he
      exact apart_of_steps hsteps
    cases f with
    | failed cause => exact List.pairwise_singleton _ _
    | typeName name => exact hchildren
    | scalar value => exact hchildren
    | absent => exact hchildren
    | object fields => exact hchildren
    | list items => exact hchildren

/-- What is null although nothing failed: a reference to nothing, or a scalar without another JSON
form. -/
def Empty (f : Finding) : Prop :=
  f = .absent ∨ ∃ v, f = .scalar v ∧ (v = .null ∨ ∃ x, v = .float x ∧ ∀ y, x ≠ .finite y)

theorem data_eq_null_iff : f.data = .null ↔ (∃ cause, f = .failed cause) ∨ f.Empty := by
  constructor
  · intro h
    cases f with
    | failed cause => exact .inl ⟨cause, rfl⟩
    | absent => exact .inr (.inl rfl)
    | scalar v =>
      refine .inr (.inr ⟨v, rfl, ?_⟩)
      cases v with
      | null => exact .inl rfl
      | float x =>
        refine .inr ⟨x, rfl, ?_⟩
        rintro y rfl
        cases h
      | bool b => cases h
      | int i => cases h
      | string s => cases h
      | list items => cases h
    | typeName name => cases h
    | object fields => cases h
    | list items => cases h
  · rintro (⟨cause, rfl⟩ | rfl | ⟨v, rfl, rfl | ⟨x, rfl, hx⟩⟩)
    · rfl
    · rfl
    · rfl
    · cases x with
      | finite y => exact absurd rfl (hx y)
      | infinite negative => rfl
      | nan => rfl

end Finding

end FieldGraph
