import FieldGraph.Proofs.Document.Numbers

/-!
# Rearranged documents

What a document says is in its objects, their scalar fields and the fields that hold objects. How
objects are spread over arrays does not matter, nor do values without an object that are no scalar
fields, nor the order of scalar fields among the others.
-/
namespace FieldGraph

namespace Json

inductive Rearranges : Json → Json → Prop
  /-- The items of an array take its place in the array around it. -/
  | splice (before inner after : List Json) :
      Rearranges (.array (before ++ .array inner :: after)) (.array (before ++ inner ++ after))
  | wrap (fields : List (String × Json)) : Rearranges (.object fields) (.array [.object fields])
  | addItem (before after : List Json) {item : Json} (hitem : item.isStructural = false) :
      Rearranges (.array (before ++ after)) (.array (before ++ item :: after))
  | addNull (before after : List (String × Json)) (key : String) :
      Rearranges (.object (before ++ after)) (.object (before ++ (key, .null) :: after))
  | addArray (before after : List (String × Json)) (key : String) {items : List Json}
      (hitems : itemObjects items = []) :
      Rearranges (.object (before ++ after)) (.object (before ++ (key, .array items) :: after))
  /-- A scalar field goes behind a field that may hold objects. -/
  | moveField (before after : List (String × Json)) {scalar structural : String × Json}
      (hscalar : scalar.2.isStructural = false) (hstructural : structural.2.isStructural = true) :
      Rearranges (.object (before ++ scalar :: structural :: after))
        (.object (before ++ structural :: scalar :: after))
  | inItem (before after : List Json) {item other : Json} (h : Rearranges item other) :
      Rearranges (.array (before ++ item :: after)) (.array (before ++ other :: after))
  | inField (before after : List (String × Json)) (key : String) {value other : Json}
      (h : Rearranges value other) :
      Rearranges (.object (before ++ (key, value) :: after))
        (.object (before ++ (key, other) :: after))

abbrev Rearranged : Json → Json → Prop := Relation.EqvGen Rearranges

theorem Rearranges.isStructural {json other : Json} (h : Rearranges json other) :
    json.isStructural = true ∧ other.isStructural = true := by
  cases h <;> exact ⟨rfl, rfl⟩

end Json

open Json

variable {rootLabel : String} {parent : Option Nat} {relation : Option String}

theorem compileItems_append (items others : List Json) (b : Batch) :
    compileItems rootLabel parent relation (items ++ others) b =
      compileItems rootLabel parent relation items b >>=
        compileItems rootLabel parent relation others := by
  induction items generalizing b with
  | nil => rfl
  | cons item items ih =>
    rw [List.cons_append, compileItems, compileItems, bind_assoc]
    exact bind_congr ih

theorem compileFields_append (fields others : List (String × Json)) (id : Nat) (b : Batch) :
    compileFields rootLabel id (fields ++ others) b =
      compileFields rootLabel id fields b >>= compileFields rootLabel id others := by
  induction fields generalizing b with
  | nil => rfl
  | cons field fields ih =>
    rw [List.cons_append, compileFields, compileFields, bind_assoc]
    exact bind_congr ih

mutual

/-- A value without an object adds nothing. -/
theorem compileInto_of_objects_nil (json : Json) (b : Batch) (h : json.objects = []) :
    compileInto rootLabel parent relation json b = .ok b := by
  match json with
  | .array items => exact compileItems_of_objects_nil items b h
  | .null | .bool _ | .integer _ _ | .float _ | .string _ => rfl

theorem compileItems_of_objects_nil (items : List Json) (b : Batch) (h : itemObjects items = []) :
    compileItems rootLabel parent relation items b = .ok b := by
  match items with
  | [] => rfl
  | item :: rest =>
    obtain ⟨hitem, hrest⟩ := List.append_eq_nil_iff.mp h
    rw [compileItems, compileInto_of_objects_nil item b hitem]
    exact compileItems_of_objects_nil rest b hrest

end

theorem propertiesOf_filter (fields : List (String × Json)) :
    propertiesOf fields = propertiesOf (fields.filter fun field => field.2.isProperty) := by
  induction fields with
  | nil => rfl
  | cons field rest ih =>
    obtain ⟨key, json⟩ := field
    cases json with
    | null | array | object => exact ih
    | bool | integer | float | string =>
      rw [List.filter_cons_of_pos rfl]
      simp only [propertiesOf, ← ih]

/-- Fields without an object add nothing. -/
theorem compileFields_filter (fields : List (String × Json)) (id : Nat) (b : Batch) :
    compileFields rootLabel id fields b =
      compileFields rootLabel id (fields.filter fun field => field.2.objects ≠ []) b := by
  induction fields generalizing b with
  | nil => rfl
  | cons field rest ih =>
    obtain ⟨key, json⟩ := field
    by_cases hnone : json.objects = []
    · rw [List.filter_cons_of_neg (by simpa using hnone), compileFields,
        compileInto_of_objects_nil json b hnone]
      exact ih b
    · rw [List.filter_cons_of_pos (by simpa using hnone), compileFields, compileFields]
      exact bind_congr ih

/-- An object is compiled by its properties and the fields with objects, each in their order. -/
theorem compileInto_object_congr {fields others : List (String × Json)}
    (hproperties : propertiesOf fields = propertiesOf others)
    (hfields : ∀ id b, compileFields rootLabel id fields b = compileFields rootLabel id others b)
    (b : Batch) :
    compileInto rootLabel parent relation (.object fields) b =
      compileInto rootLabel parent relation (.object others) b := by
  rw [compileInto, compileInto, hproperties]
  apply bind_congr
  intro properties
  exact bind_congr fun c => hfields b.nextId c

theorem propertiesOf_middle (before after : List (String × Json)) {field : String × Json}
    (h : field.2.isProperty = false) :
    propertiesOf (before ++ field :: after) = propertiesOf (before ++ after) := by
  rw [propertiesOf_filter, propertiesOf_filter (before ++ after)]
  simp [h]

theorem compileFields_middle (before after : List (String × Json)) {field : String × Json}
    (h : field.2.objects = []) (id : Nat) (b : Batch) :
    compileFields rootLabel id (before ++ field :: after) b =
      compileFields rootLabel id (before ++ after) b := by
  rw [compileFields_filter, compileFields_filter (before ++ after)]
  simp [h]

theorem compileInto_without_field (before after : List (String × Json)) {field : String × Json}
    (hproperty : field.2.isProperty = false) (hobjects : field.2.objects = []) (b : Batch) :
    compileInto rootLabel parent relation (.object (before ++ after)) b =
      compileInto rootLabel parent relation (.object (before ++ field :: after)) b :=
  compileInto_object_congr (propertiesOf_middle before after hproperty).symm
    (fun id b => (compileFields_middle before after hobjects id b).symm) b

/-- One change of a part of a document does not change what the part adds to a batch. -/
theorem compileInto_rearranges {json other : Json} (h : Rearranges json other)
    (parent : Option Nat) (relation : Option String) (b : Batch) :
    compileInto rootLabel parent relation json b =
      compileInto rootLabel parent relation other b := by
  induction h generalizing parent relation b with
  | splice before inner after =>
    simp only [compileInto, compileItems_append, compileItems, bind_assoc]
  | wrap fields =>
    rw [compileInto.eq_2, compileItems]
    exact (bind_pure _).symm
  | @addItem before after item hitem =>
    have hskip : ∀ c, compileItems rootLabel parent relation (item :: after) c =
        compileItems rootLabel parent relation after c := by
      intro c
      rw [compileItems, compileInto_of_objects_nil item c (objects_of_not_structural hitem)]
      rfl
    rw [compileInto, compileInto, compileItems_append, compileItems_append]
    exact bind_congr fun c => (hskip c).symm
  | addNull before after key => exact compileInto_without_field before after rfl rfl b
  | @addArray before after key items hitems =>
    exact @compileInto_without_field _ _ _ before after (key, .array items) rfl hitems b
  | @moveField before after scalar structural hscalar hstructural =>
    have hproperty := isProperty_of_isStructural hstructural
    have hobjects := objects_of_not_structural hscalar
    apply compileInto_object_congr
    · rw [List.append_cons before scalar, propertiesOf_middle _ after hproperty,
        propertiesOf_middle before _ hproperty, ← List.append_cons]
    · intro id b
      rw [List.append_cons before structural, compileFields_middle before _ hobjects,
        compileFields_middle _ after hobjects, ← List.append_cons]
  | inItem before after h ih =>
    simp only [compileInto, compileItems_append, compileItems, ih]
  | inField before after key h ih =>
    apply compileInto_object_congr
    · rw [propertiesOf_middle before after (isProperty_of_isStructural h.isStructural.1),
        propertiesOf_middle before after (isProperty_of_isStructural h.isStructural.2)]
    · intro id b
      simp only [compileFields_append, compileFields, ih]

/-- Documents that can be rearranged into each other are compiled to the same statements and
numbers, or fail alike. -/
theorem compile_rearranged (rootLabel : String) {document other : Json}
    (h : Rearranged document other) : compile rootLabel document = compile rootLabel other := by
  induction h with
  | rel document other hchange =>
    obtain ⟨hdocument, hother⟩ := hchange.isStructural
    rw [compile_of_structural hdocument, compile_of_structural hother]
    exact compileInto_rearranges hchange none none .empty
  | refl => rfl
  | symm _ _ _ ih => exact ih.symm
  | trans _ _ _ _ _ hfirst hsecond => exact hfirst.trans hsecond

/-- A post with its comments spread over arrays, before its title and among fields that say
nothing. -/
def scatteredDocument : Json :=
  .object [("comments", .array [.object [("text", .string "b")],
      .array [.object [("text", .string "c")], .bool true]]),
    ("tags", .array [.string "x"]), ("title", .string "a"), ("deleted", .null)]

def tidyDocument : Json :=
  .object [("title", .string "a"),
    ("comments", .array [.object [("text", .string "b")], .object [("text", .string "c")]])]

theorem scattered_compiled_as_tidy :
    Rearranged scatteredDocument tidyDocument ∧
      compile defaultLabel scatteredDocument = compile defaultLabel tidyDocument ∧
      ∃ b, compile defaultLabel tidyDocument = .ok b ∧ b.nextId = 3 := by
  have htrue : Rearranges (.array [.object [("text", .string "c")]])
      (.array [.object [("text", .string "c")], .bool true]) := .addItem [_] [] rfl
  have hscattered : Rearranged scatteredDocument tidyDocument := by
    refine .trans _ _ _ (.symm _ _ (.rel _ _ (.inField [] _ _ (.inItem [_] [] htrue)))) ?_
    refine .trans _ _ _ (.rel _ _ (.inField [] _ _ (.splice [_] [_] []))) ?_
    refine .trans _ _ _ (.symm _ _ (.rel _ _ (.addArray [_] [_, _] _ rfl))) ?_
    refine .trans _ _ _ (.symm _ _ (.rel _ _ (.addNull [_, _] [] _))) ?_
    exact .symm _ _ (.rel _ _ (.moveField [] [] rfl rfl))
  exact ⟨hscattered, compile_rearranged defaultLabel hscattered, _, rfl, rfl⟩

end FieldGraph
