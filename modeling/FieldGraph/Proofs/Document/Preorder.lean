import FieldGraph.Proofs.Document.Places
import Mathlib.Data.List.Forall2

/-!
# Compiled documents in preorder

The statements of a compiled document are those of its objects, one object after another in the
order of their places. What stands for an object depends on its own scalar fields and on the field
that holds it, and on nothing else in the document.
-/
namespace FieldGraph

namespace Json

def scalarFields (fields : List (String × Json)) : List (String × Value) :=
  fields.filterMap fun field =>
    match field.2 with
    | .null => none
    | json => (Value.ofScalar? json).map (field.1, ·)

/-- What stands for the object at a place under its number: nothing unless it has a scalar field,
else its node, with an edge to the object that holds it if there is one. -/
inductive ObjectStatements (rootLabel : String) (document : Json) :
    Place × Nat → List Mutation → Prop
  | bare {place : Place} {id : Nat} {fields : List (String × Json)}
      (hobject : document.at? place = some (.object fields)) (hnone : scalarFields fields = []) :
      ObjectStatements rootLabel document (place, id) []
  | root {place : Place} {id : Nat} {fields : List (String × Json)}
      (hobject : document.at? place = some (.object fields)) (hsome : scalarFields fields ≠ [])
      (hroot : document.Arrays [] place) :
      ObjectStatements rootLabel document (place, id)
        [.mergeNode id rootLabel (scalarFields fields)]
  | held {place owner : Place} {id parent : Nat} {key : String} {fields : List (String × Json)}
      (hobject : document.at? place = some (.object fields)) (hsome : scalarFields fields ≠ [])
      (hheld : document.HeldBy place owner key) (hparent : document.places[parent]? = some owner) :
      ObjectStatements rootLabel document (place, id)
        [.mergeNode id (toLabel key) (scalarFields fields),
          .mergeEdge id (toEdgeType key) parent]

/-- The number of the object and the field that introduced a place, unless it is an entry of the
document itself. -/
inductive Introduced (document : Json) (place : Place) : Option (Nat × String) → Prop
  | root (hroot : document.Arrays [] place) : Introduced document place none
  | field {owner : Place} {parent : Nat} {key : String} (hheld : document.HeldBy place owner key)
      (hparent : document.places[parent]? = some owner) :
      Introduced document place (some (parent, key))

variable {document : Json} {place : Place}

theorem Arrays.nil (document : Json) (start : Place) : document.Arrays start [] :=
  fun _ hprefix hne => absurd (List.prefix_nil.mp hprefix) hne

theorem Arrays.concat {start way : Place} (h : document.Arrays start way) {items : List Json}
    (hitems : document.at? (start ++ way) = some (.array items)) (i : Nat) :
    document.Arrays start (way ++ [i]) := by
  intro passed hprefix hne
  rcases List.prefix_concat_iff.mp hprefix with heq | hprefix
  · exact absurd heq hne
  · by_cases hway : passed = way
    · exact ⟨items, hway ▸ hitems⟩
    · exact h passed hprefix hway

theorem HeldBy.item {owner : Place} {key : String} (h : document.HeldBy place owner key)
    {items : List Json} (hitems : document.at? place = some (.array items)) (i : Nat) :
    document.HeldBy (place ++ [i]) owner key := by
  obtain ⟨fields, j, value, rest, howner, hfield, rfl, harrays⟩ := h
  refine ⟨fields, j, value, rest ++ [i], howner, hfield, ?_, ?_⟩
  · rw [List.append_assoc, List.cons_append]
  · have hway : document.at? (owner ++ [j] ++ rest) = some (.array items) := by
      rwa [List.append_assoc, List.singleton_append]
    exact harrays.concat hway i

theorem Introduced.item {link : Option (Nat × String)} (h : document.Introduced place link)
    {items : List Json} (hitems : document.at? place = some (.array items)) (i : Nat) :
    document.Introduced (place ++ [i]) link := by
  cases h with
  | root hroot => exact .root (hroot.concat hitems i)
  | field hheld hparent => exact .field (hheld.item hitems i) hparent

theorem introduced_field {fields : List (String × Json)} {i id : Nat} {key : String} {value : Json}
    (hobject : document.at? place = some (.object fields)) (hfield : fields[i]? = some (key, value))
    (hid : document.places[id]? = some place) :
    document.Introduced (place ++ [i]) (some (id, key)) :=
  .field ⟨fields, i, value, [], hobject, hfield, rfl, .nil _ _⟩ hid

theorem describedFrom_ascending (next : Nat) (objects : List (List (String × Json))) :
    (describedFrom next objects).Pairwise (· < ·) := by
  induction objects generalizing next with
  | nil => exact List.Pairwise.nil
  | cons fields objects ih =>
    have hone : (if hasProperties fields then [next] else []).Pairwise (· < ·) := by
      split <;> simp
    refine List.pairwise_append.mpr ⟨hone, ih (next + 1), ?_⟩
    intro id hid other hother
    obtain ⟨i, _, rfl, _, _⟩ := mem_describedFrom.mp hother
    have hid : id = next := by
      split at hid
      · exact List.mem_singleton.mp hid
      · cases hid
    omega

theorem isEmpty_scalarFields (fields : List (String × Json)) :
    (scalarFields fields).isEmpty = !hasProperties fields := by
  induction fields with
  | nil => rfl
  | cons field rest ih =>
    obtain ⟨key, json⟩ := field
    cases json with
    | null | array | object => exact ih
    | bool | integer | float | string => rfl

theorem map_places_below (place : Place) (i : Nat) (inside : List Place) :
    (inside.map (i :: ·)).map (place ++ ·) = inside.map (place ++ [i] ++ ·) := by
  simp

def numbered (place : Place) (next : Nat) (inside : List Place) : List (Place × Nat) :=
  (inside.map (place ++ ·)).zipIdx next

theorem numbered_append (next : Nat) (first others : List Place) :
    numbered place next (first ++ others) =
      numbered place next first ++ numbered place (next + first.length) others := by
  rw [numbered, List.map_append, List.zipIdx_append, List.length_map]
  rfl

/-- The places in the part at a position come first, and then those in the parts after it. -/
theorem numbered_cons (next i : Nat) (part : Json) (rest : List Place) :
    numbered place next (part.places.map (i :: ·) ++ rest) =
      numbered (place ++ [i]) next part.places ++
        numbered place (next + part.objects.length) rest := by
  rw [numbered_append, numbered, map_places_below, List.length_map, length_places]
  rfl

theorem numbered_nil (inside : List Place) : numbered [] 0 inside = inside.zipIdx := by
  simp [numbered]

end Json

open Json

/-- Every scalar field that is not null is a property. -/
theorem propertiesOf_eq {fields : List (String × Json)} {properties : List (String × Value)}
    (h : propertiesOf fields = .ok properties) : properties = scalarFields fields := by
  induction fields generalizing properties with
  | nil =>
    cases h
    rfl
  | cons field rest ih =>
    obtain ⟨key, json⟩ := field
    cases json with
    | null | array | object => exact ih h
    | bool | integer | float | string =>
      obtain ⟨name, hname, h⟩ := bind_eq_ok.mp h
      obtain ⟨others, hothers, h⟩ := bind_eq_ok.mp h
      cases h
      obtain ⟨rfl, _⟩ := checkedName_ok hname
      exact congrArg _ (ih hothers)

namespace Batch

variable {rootLabel : String} {document : Json} {b c d : Batch}

/-- The second batch has the statements of the given objects after those of the first. -/
def Adds (rootLabel : String) (document : Json) (entries : List (Place × Nat)) (b c : Batch) :
    Prop :=
  ∃ blocks, c.mutations.toList = b.mutations.toList ++ blocks.flatten ∧
    List.Forall₂ (ObjectStatements rootLabel document) entries blocks

theorem Adds.refl (b : Batch) : Adds rootLabel document [] b b :=
  ⟨[], (List.append_nil _).symm, .nil⟩

theorem Adds.append {first others : List (Place × Nat)} (hbc : Adds rootLabel document first b c)
    (hcd : Adds rootLabel document others c d) :
    Adds rootLabel document (first ++ others) b d := by
  obtain ⟨blocks, hc, hblocks⟩ := hbc
  obtain ⟨more, hd, hmore⟩ := hcd
  refine ⟨blocks ++ more, ?_, List.rel_append hblocks hmore⟩
  rw [hd, hc, List.flatten_append, List.append_assoc]

theorem Adds.block {entry : Place × Nat} {block : List Mutation}
    (h : ObjectStatements rootLabel document entry block)
    (hc : c.mutations.toList = b.mutations.toList ++ block) :
    Adds rootLabel document [entry] b c :=
  ⟨[block], by rw [hc, List.flatten_singleton], .cons h .nil⟩

theorem pushObject_adds {place : Place} {link : Option (Nat × String)}
    {fields : List (String × Json)} {properties : List (String × Value)}
    (hobject : document.at? place = some (.object fields)) (hlink : document.Introduced place link)
    (hproperties : propertiesOf fields = .ok properties)
    (h : pushObject rootLabel (link.map Prod.fst) (link.map Prod.snd) b.nextId properties
      b.allocate = .ok c) : Adds rootLabel document [(place, b.nextId)] b c := by
  obtain rfl := propertiesOf_eq hproperties
  unfold pushObject at h
  by_cases hempty : (scalarFields fields).isEmpty = true
  · rw [if_pos hempty] at h
    cases h
    exact .block (.bare hobject (List.isEmpty_iff.mp hempty)) (List.append_nil _).symm
  · rw [if_neg hempty] at h
    have hsome : scalarFields fields ≠ [] := fun hnil => hempty (List.isEmpty_iff.mpr hnil)
    obtain ⟨label, hlabel, h⟩ := bind_eq_ok.mp h
    obtain ⟨rfl, _⟩ := checkedName_ok hlabel
    cases hlink with
    | root hroot =>
      cases h
      exact .block (.root hobject hsome hroot) (by simp [push, allocate, labelOf])
    | field hheld hparent =>
      obtain ⟨edgeType, htype, h⟩ := bind_eq_ok.mp h
      obtain ⟨rfl, _⟩ := checkedName_ok htype
      cases h
      exact .block (.held hobject hsome hheld hparent) (by simp [push, allocate, labelOf])

mutual

theorem compileInto_adds (json : Json) {place : Place} {link : Option (Nat × String)}
    {b c : Batch} (hat : document.at? place = some json) (hlink : document.Introduced place link)
    (hnumbers : numbered place b.nextId json.places ⊆ document.places.zipIdx)
    (h : compileInto rootLabel (link.map Prod.fst) (link.map Prod.snd) json b = .ok c) :
    Adds rootLabel document (numbered place b.nextId json.places) b c := by
  match json with
  | .object fields =>
    obtain ⟨properties, hproperties, h⟩ := bind_eq_ok.mp h
    obtain ⟨d, hpush, h⟩ := bind_eq_ok.mp h
    have hhead : numbered place b.nextId (places (.object fields)) =
        [(place, b.nextId)] ++ numbered place d.nextId (fieldPlaces 0 fields) := by
      rw [(pushObject_numbers hproperties hpush).next, places,
        ← List.singleton_append, numbered_append]
      simp [numbered]
    rw [hhead] at hnumbers ⊢
    have hid : document.places[b.nextId]? = some place :=
      List.mem_zipIdx_iff_getElem?.mp (hnumbers List.mem_cons_self)
    have hfields : ∀ i key value, fields[i]? = some (key, value) →
        document.at? (place ++ [0 + i]) = some value ∧
          document.Introduced (place ++ [0 + i]) (some (b.nextId, key)) := by
      intro i key value hfield
      rw [Nat.zero_add]
      refine ⟨?_, introduced_field hat hfield hid⟩
      rw [at?_concat hat, parts, List.getElem?_map, hfield]
      rfl
    exact (pushObject_adds hat hlink hproperties hpush).append
      (compileFields_adds fields hfields (List.append_subset.mp hnumbers).2 h)
  | .array items =>
    apply compileItems_adds items (i := 0) _ hnumbers h
    intro j item hitem
    rw [Nat.zero_add]
    exact ⟨(at?_concat hat j).trans hitem, hlink.item hat j⟩
  | .null | .bool _ | .integer _ _ | .float _ | .string _ =>
    cases h
    exact .refl b

theorem compileItems_adds (items : List Json) {place : Place} {i : Nat}
    {link : Option (Nat × String)} {b c : Batch}
    (hitems : ∀ j item, items[j]? = some item →
      document.at? (place ++ [i + j]) = some item ∧ document.Introduced (place ++ [i + j]) link)
    (hnumbers : numbered place b.nextId (itemPlaces i items) ⊆ document.places.zipIdx)
    (h : compileItems rootLabel (link.map Prod.fst) (link.map Prod.snd) items b = .ok c) :
    Adds rootLabel document (numbered place b.nextId (itemPlaces i items)) b c := by
  match items with
  | [] =>
    cases h
    exact .refl b
  | item :: rest =>
    obtain ⟨d, hitem, hrest⟩ := bind_eq_ok.mp h
    rw [itemPlaces, numbered_cons, ← (compileInto_numbers item hitem).next] at hnumbers ⊢
    obtain ⟨hat, hlink⟩ := hitems 0 item rfl
    have hothers : ∀ j other, rest[j]? = some other →
        document.at? (place ++ [i + 1 + j]) = some other ∧
          document.Introduced (place ++ [i + 1 + j]) link := by
      intro j other hother
      rw [Nat.add_assoc, Nat.add_comm 1 j]
      exact hitems (j + 1) other hother
    exact (compileInto_adds item hat hlink (List.append_subset.mp hnumbers).1 hitem).append
      (compileItems_adds rest hothers (List.append_subset.mp hnumbers).2 hrest)

theorem compileFields_adds (fields : List (String × Json)) {place : Place} {i id : Nat}
    {b c : Batch}
    (hfields : ∀ j key value, fields[j]? = some (key, value) →
      document.at? (place ++ [i + j]) = some value ∧
        document.Introduced (place ++ [i + j]) (some (id, key)))
    (hnumbers : numbered place b.nextId (fieldPlaces i fields) ⊆ document.places.zipIdx)
    (h : compileFields rootLabel id fields b = .ok c) :
    Adds rootLabel document (numbered place b.nextId (fieldPlaces i fields)) b c := by
  match fields with
  | [] =>
    cases h
    exact .refl b
  | (key, value) :: rest =>
    obtain ⟨d, hvalue, hrest⟩ := bind_eq_ok.mp h
    rw [fieldPlaces, numbered_cons, ← (compileInto_numbers value hvalue).next] at hnumbers ⊢
    obtain ⟨hat, hlink⟩ := hfields 0 key value rfl
    have hothers : ∀ j other held, rest[j]? = some (other, held) →
        document.at? (place ++ [i + 1 + j]) = some held ∧
          document.Introduced (place ++ [i + 1 + j]) (some (id, other)) := by
      intro j other held hother
      rw [Nat.add_assoc, Nat.add_comm 1 j]
      exact hfields (j + 1) other held hother
    exact (compileInto_adds value hat hlink (List.append_subset.mp hnumbers).1 hvalue).append
      (compileFields_adds rest hothers (List.append_subset.mp hnumbers).2 hrest)

end

end Batch

variable {rootLabel : String} {document : Json} {b : Batch}

theorem adds_of_compile (h : compile rootLabel document = .ok b) :
    Batch.Adds rootLabel document document.places.zipIdx .empty b := by
  have hinto : compileInto rootLabel none none document .empty = .ok b := by
    unfold compile at h
    split at h
    · exact h
    · exact h
    · cases h
  have hall : numbered [] Batch.empty.nextId document.places = document.places.zipIdx :=
    numbered_nil _
  have hnumbers : numbered [] Batch.empty.nextId document.places ⊆ document.places.zipIdx := by
    rw [hall]
    exact List.Subset.refl _
  rw [← hall]
  have hlink : document.Introduced [] none := .root (.nil document [])
  exact Batch.compileInto_adds document (at?_nil document) hlink hnumbers hinto

theorem described_of_compile_iff (h : compile rootLabel document = .ok b) {id : Nat} :
    id ∈ b.described ↔ ∃ place fields, document.places[id]? = some place ∧
      document.at? place = some (.object fields) ∧ scalarFields fields ≠ [] := by
  have hsome : ∀ fields, hasProperties fields = true ↔ scalarFields fields ≠ [] := by
    intro fields
    rw [ne_eq, ← List.isEmpty_iff, isEmpty_scalarFields]
    simp
  have hplaces : (document.places[id]?).map document.at? =
      (document.objects[id]?).map (some ∘ .object) := by
    rw [← List.getElem?_map, ← List.getElem?_map, map_places]
  rw [described_of_compile h]
  constructor
  · rintro ⟨fields, hfields, hproperties⟩
    rw [hfields] at hplaces
    obtain ⟨place, hplace, hobject⟩ := Option.map_eq_some_iff.mp hplaces
    exact ⟨place, fields, hplace, hobject, (hsome fields).mp hproperties⟩
  · rintro ⟨place, fields, hplace, hobject, hproperties⟩
    rw [hplace, Option.map_some, hobject] at hplaces
    obtain ⟨other, hother, heq⟩ := Option.map_eq_some_iff.mp hplaces.symm
    cases heq
    exact ⟨fields, hother, (hsome fields).mpr hproperties⟩

/-- A compiled document is the reading of the document in preorder. -/
theorem compiled_in_preorder (h : compile rootLabel document = .ok b) :
    document.places.Pairwise (· < ·) ∧
    (∀ place, place ∈ document.places ↔ ∃ fields, document.at? place = some (.object fields)) ∧
    b.nextId = document.places.length ∧
    (∀ id, id ∈ b.described ↔ ∃ place fields, document.places[id]? = some place ∧
      document.at? place = some (.object fields) ∧ scalarFields fields ≠ []) ∧
    b.described.Pairwise (· < ·) ∧
    ∃ blocks, b.mutations.toList = blocks.flatten ∧
      List.Forall₂ (ObjectStatements rootLabel document) document.places.zipIdx blocks := by
  refine ⟨document.places_ascending, fun _ => mem_places, ?_, fun _ => described_of_compile_iff h,
    ?_, adds_of_compile h⟩
  · rw [nextId_of_compile h, length_places]
  · rw [(numbers_of_compile h).described]
    exact describedFrom_ascending _ _

def nestedDocument : Json :=
  .object [("title", .string "a"), ("place", .null),
    ("comments", .array [.object [("text", .string "b")],
      .array [.object [("text", .string "c"), ("author", .object [("name", .string "d")])]]]),
    ("meta", .object [("source", .object [("name", .string "e")])])]

theorem nested_in_preorder :
    ∃ b, compile defaultLabel nestedDocument = .ok b ∧
      nestedDocument.places = [[], [2, 0], [2, 1, 0], [2, 1, 0, 1], [3], [3, 0]] ∧
      b.nextId = 6 ∧ b.described = [0, 1, 2, 3, 5] ∧
      ∃ blocks, b.mutations.toList = blocks.flatten ∧
        List.Forall₂ (ObjectStatements defaultLabel nestedDocument)
          nestedDocument.places.zipIdx blocks := by
  obtain ⟨b, hcompile, hdescribed⟩ :
      ∃ b, compile defaultLabel nestedDocument = .ok b ∧ b.described = [0, 1, 2, 3, 5] :=
    ⟨_, rfl, rfl⟩
  obtain ⟨_, _, hnext, _, _, hblocks⟩ := compiled_in_preorder hcompile
  exact ⟨b, hcompile, rfl, hnext, hdescribed, hblocks⟩

end FieldGraph
