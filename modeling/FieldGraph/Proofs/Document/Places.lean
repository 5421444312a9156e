import FieldGraph.Proofs.Document.Numbers

/-!
# Places in a document

A place is the list of positions that lead from a value to one of its parts. The order of lists puts
the place of a value before those of its parts, and a part before the parts after it, which is the
order in which objects are numbered.
-/
namespace FieldGraph.Json

abbrev Place := List Nat

def parts : Json → List Json
  | .array items => items
  | .object fields => fields.map Prod.snd
  | _ => []

def at? (json : Json) : Place → Option Json
  | [] => some json
  | i :: rest => json.parts[i]?.bind fun part => at? part rest

mutual

/-- The places of the objects in a value, an object before those in its fields. -/
def places : Json → List Place
  | .object fields => [] :: fieldPlaces 0 fields
  | .array items => itemPlaces 0 items
  | _ => []

def itemPlaces (i : Nat) : List Json → List Place
  | [] => []
  | item :: rest => (places item).map (i :: ·) ++ itemPlaces (i + 1) rest

def fieldPlaces (i : Nat) : List (String × Json) → List Place
  | [] => []
  | (_, value) :: rest => (places value).map (i :: ·) ++ fieldPlaces (i + 1) rest

end

/-- Every part that is passed on the way from a place is an array. -/
def Arrays (document : Json) (start way : Place) : Prop :=
  ∀ passed, passed <+: way → passed ≠ way →
    ∃ items, document.at? (start ++ passed) = some (.array items)

/-- The part at a place is in a field of the owner, directly or as an item of nested arrays. -/
def HeldBy (document : Json) (place owner : Place) (key : String) : Prop :=
  ∃ fields i value rest, document.at? owner = some (.object fields) ∧
    fields[i]? = some (key, value) ∧ place = owner ++ i :: rest ∧
    document.Arrays (owner ++ [i]) rest

@[simp] theorem at?_nil (json : Json) : json.at? [] = some json := rfl

theorem at?_cons (json : Json) (i : Nat) (rest : Place) :
    json.at? (i :: rest) = json.parts[i]?.bind (·.at? rest) := rfl

theorem at?_append (json : Json) (place rest : Place) :
    json.at? (place ++ rest) = (json.at? place).bind (·.at? rest) := by
  induction place generalizing json with
  | nil => rfl
  | cons i place ih =>
    rw [List.cons_append, at?_cons, at?_cons]
    cases json.parts[i]? with
    | none => rfl
    | some part => exact ih part

theorem at?_concat {document json : Json} {place : Place} (h : document.at? place = some json)
    (i : Nat) : document.at? (place ++ [i]) = json.parts[i]? := by
  rw [at?_append, h, Option.bind_some, at?_cons]
  cases json.parts[i]? <;> rfl

theorem fieldPlaces_eq (i : Nat) (fields : List (String × Json)) :
    fieldPlaces i fields = itemPlaces i (fields.map Prod.snd) := by
  induction fields generalizing i with
  | nil => rfl
  | cons field rest ih => exact congrArg _ (ih (i + 1))

theorem mem_itemPlaces {place : Place} {items : List Json} {i : Nat} :
    place ∈ itemPlaces i items ↔
      ∃ j item rest, items[j]? = some item ∧ rest ∈ item.places ∧ place = (i + j) :: rest := by
  induction items generalizing i with
  | nil => simp [itemPlaces]
  | cons first items ih =>
    rw [itemPlaces, List.mem_append, List.mem_map, ih]
    constructor
    · rintro (⟨rest, hrest, rfl⟩ | ⟨j, item, rest, hitem, hrest, rfl⟩)
      · exact ⟨0, first, rest, rfl, hrest, rfl⟩
      · refine ⟨j + 1, item, rest, hitem, hrest, ?_⟩
        rw [Nat.add_right_comm, Nat.add_assoc]
    · rintro ⟨j, item, rest, hitem, hrest, rfl⟩
      cases j with
      | zero =>
        cases hitem
        exact .inl ⟨rest, hrest, rfl⟩
      | succ j =>
        refine .inr ⟨j, item, rest, hitem, hrest, ?_⟩
        rw [Nat.add_right_comm, Nat.add_assoc]

theorem cons_mem_itemPlaces {items : List Json} {i : Nat} {rest : Place} :
    i :: rest ∈ itemPlaces 0 items ↔ ∃ part, items[i]? = some part ∧ rest ∈ part.places := by
  rw [mem_itemPlaces]
  constructor
  · rintro ⟨j, item, _, hitem, hrest, heq⟩
    rw [Nat.zero_add] at heq
    cases heq
    exact ⟨item, hitem, hrest⟩
  · rintro ⟨part, hpart, hrest⟩
    exact ⟨i, part, rest, hpart, hrest, by rw [Nat.zero_add]⟩

theorem cons_mem_places {json : Json} {i : Nat} {rest : Place} :
    i :: rest ∈ json.places ↔ ∃ part, json.parts[i]? = some part ∧ rest ∈ part.places := by
  cases json with
  | array items => exact cons_mem_itemPlaces
  | object fields =>
    rw [places, fieldPlaces_eq, List.mem_cons, cons_mem_itemPlaces]
    simp [parts]
  | null | bool | integer | float | string => simp [places, parts]

theorem mem_places {json : Json} {place : Place} :
    place ∈ json.places ↔ ∃ fields, json.at? place = some (.object fields) := by
  induction place generalizing json with
  | nil =>
    cases json with
    | object fields => simp [places]
    | array items => simp [places, mem_itemPlaces]
    | null | bool | integer | float | string => simp [places]
  | cons i rest ih =>
    rw [cons_mem_places, at?_cons]
    constructor
    · rintro ⟨part, hpart, hrest⟩
      rw [hpart]
      exact ih.mp hrest
    · rintro ⟨fields, hfields⟩
      obtain ⟨part, hpart, hrest⟩ := Option.bind_eq_some_iff.mp hfields
      exact ⟨part, hpart, ih.mpr ⟨fields, hrest⟩⟩

theorem itemPlaces_ascending {items : List Json}
    (h : ∀ item ∈ items, item.places.Pairwise (· < ·)) (i : Nat) :
    (itemPlaces i items).Pairwise (· < ·) := by
  induction items generalizing i with
  | nil => exact List.Pairwise.nil
  | cons first items ih =>
    rw [itemPlaces]
    refine List.pairwise_append.mpr ⟨?_, ih (fun item hitem => h item (.tail _ hitem)) (i + 1), ?_⟩
    · rw [List.pairwise_map]
      exact (h first List.mem_cons_self).imp fun hlt => List.cons_lt_cons_iff.mpr (.inr ⟨rfl, hlt⟩)
    · intro place hplace other hother
      obtain ⟨rest, _, rfl⟩ := List.mem_map.mp hplace
      obtain ⟨j, _, _, _, _, rfl⟩ := mem_itemPlaces.mp hother
      exact List.cons_lt_cons_iff.mpr (.inl (by omega))

theorem induction_parts {motive : Json → Prop}
    (h : ∀ json, (∀ part ∈ json.parts, motive part) → motive json) (json : Json) :
    motive json := by
  apply h
  intro part hpart
  have hsmaller : sizeOf part < sizeOf json := by
    cases json with
    | array items =>
      have hitem : sizeOf part < sizeOf items := List.sizeOf_lt_of_mem hpart
      rw [array.sizeOf_spec]
      omega
    | object fields =>
      obtain ⟨⟨key, value⟩, hfield, rfl⟩ := List.mem_map.mp hpart
      have hlt := List.sizeOf_lt_of_mem hfield
      rw [Prod.mk.sizeOf_spec] at hlt
      show sizeOf value < _
      rw [object.sizeOf_spec]
      omega
    | null | bool | integer | float | string => cases hpart
  exact induction_parts h part
termination_by json

theorem places_ascending (json : Json) : json.places.Pairwise (· < ·) := by
  induction json using induction_parts with
  | h json ih =>
    cases json with
    | object fields =>
      rw [places, fieldPlaces_eq]
      refine List.pairwise_cons.mpr ⟨?_, itemPlaces_ascending ih 0⟩
      intro place hplace
      obtain ⟨_, _, _, _, _, rfl⟩ := mem_itemPlaces.mp hplace
      exact List.nil_lt_cons _ _
    | array items => exact itemPlaces_ascending ih 0
    | null | bool | integer | float | string => exact List.Pairwise.nil

theorem fieldObjects_eq (fields : List (String × Json)) :
    fieldObjects fields = itemObjects (fields.map Prod.snd) := by
  induction fields with
  | nil => rfl
  | cons field rest ih => exact congrArg _ ih

theorem map_itemPlaces {items : List Json}
    (h : ∀ item ∈ items, item.places.map item.at? = item.objects.map (some ∘ object)) {i : Nat}
    {part : Place → Option Json}
    (hpart : ∀ j item rest, items[j]? = some item → part ((i + j) :: rest) = item.at? rest) :
    (itemPlaces i items).map part = (itemObjects items).map (some ∘ object) := by
  induction items generalizing i with
  | nil => rfl
  | cons first items ih =>
    have hfirst : ∀ rest, part (i :: rest) = first.at? rest := fun rest => hpart 0 first rest rfl
    have hothers : (itemPlaces (i + 1) items).map part =
        (itemObjects items).map (some ∘ object) := by
      apply ih fun item hitem => h item (.tail _ hitem)
      intro j item rest hitem
      rw [Nat.add_right_comm]
      exact hpart (j + 1) item rest hitem
    rw [itemPlaces, itemObjects, List.map_append, List.map_append, hothers,
      ← h first List.mem_cons_self, List.map_map]
    exact congrArg (· ++ _) (List.map_congr_left fun rest _ => hfirst rest)

/-- The objects of a value are at its places, in the same order. -/
theorem map_places (json : Json) : json.places.map json.at? = json.objects.map (some ∘ object) := by
  induction json using induction_parts with
  | h json ih =>
    have hparts : (itemPlaces 0 json.parts).map json.at? =
        (itemObjects json.parts).map (some ∘ object) := by
      apply map_itemPlaces ih
      intro j item rest hitem
      rw [Nat.zero_add, at?_cons, hitem, Option.bind_some]
    cases json with
    | object fields =>
      rw [places, objects, fieldPlaces_eq, fieldObjects_eq]
      exact congrArg (some (object fields) :: ·) hparts
    | array items => exact hparts
    | null | bool | integer | float | string => rfl

theorem length_places (json : Json) : json.places.length = json.objects.length := by
  simpa using congrArg List.length json.map_places

end FieldGraph.Json
