import FieldGraph.Proofs.Document.Compiled

/-!
# Numbers of objects

The objects of a document are numbered in the order in which they occur in it. A statement describes
exactly those that have a property, and every edge starts at one of them.
-/
namespace FieldGraph

namespace Json

def isProperty : Json → Bool
  | .null | .array _ | .object _ => false
  | .bool _ | .integer _ _ | .float _ | .string _ => true

def isStructural : Json → Bool
  | .array _ | .object _ => true
  | .null | .bool _ | .integer _ _ | .float _ | .string _ => false

theorem isProperty_of_isStructural {json : Json} (h : json.isStructural = true) :
    json.isProperty = false := by
  cases json with
  | array | object => rfl
  | null | bool | integer | float | string => cases h

theorem objects_of_not_structural {json : Json} (h : json.isStructural = false) :
    json.objects = [] := by
  cases json with
  | array | object => cases h
  | null | bool | integer | float | string => rfl

def hasProperties (fields : List (String × Json)) : Bool :=
  fields.any fun field => field.2.isProperty

/-- The numbers of the objects with properties, counted from the given one. -/
def describedFrom : Nat → List (List (String × Json)) → List Nat
  | _, [] => []
  | next, fields :: rest =>
    (if hasProperties fields then [next] else []) ++ describedFrom (next + 1) rest

theorem describedFrom_append (next : Nat) (first others : List (List (String × Json))) :
    describedFrom next (first ++ others) =
      describedFrom next first ++ describedFrom (next + first.length) others := by
  induction first generalizing next with
  | nil => rfl
  | cons fields first ih =>
    have hnext : next + 1 + first.length = next + (first.length + 1) := by omega
    simp only [List.cons_append, describedFrom, ih, List.append_assoc, List.length_cons, hnext]

theorem mem_describedFrom {id next : Nat} {objects : List (List (String × Json))} :
    id ∈ describedFrom next objects ↔
      ∃ i fields, id = next + i ∧ objects[i]? = some fields ∧ hasProperties fields = true := by
  induction objects generalizing next with
  | nil => simp [describedFrom]
  | cons first objects ih =>
    rw [describedFrom, List.mem_append, ih]
    constructor
    · rintro (hfirst | ⟨i, fields, rfl, hfields⟩)
      · split at hfirst
        case isTrue hproperties =>
          exact ⟨0, first, List.mem_singleton.mp hfirst, rfl, hproperties⟩
        case isFalse => cases hfirst
      · exact ⟨i + 1, fields, by omega, hfields⟩
    · rintro ⟨i, fields, rfl, hfields, hproperties⟩
      cases i with
      | zero =>
        cases hfields
        simp [hproperties]
      | succ i => exact .inr ⟨i, fields, by omega, hfields, hproperties⟩

end Json

theorem isEmpty_propertiesOf {fields : List (String × Json)} {properties : List (String × Value)}
    (h : propertiesOf fields = .ok properties) :
    properties.isEmpty = !Json.hasProperties fields := by
  induction fields generalizing properties with
  | nil =>
    cases h
    rfl
  | cons field rest ih =>
    obtain ⟨key, json⟩ := field
    cases json with
    | null => exact ih h
    | array items => exact ih h
    | object fields => exact ih h
    | bool | integer | float | string =>
      obtain ⟨_, _, h⟩ := bind_eq_ok.mp h
      obtain ⟨_, _, h⟩ := bind_eq_ok.mp h
      cases h
      rfl

namespace Batch

variable {rootLabel : String} {objects : List (List (String × Json))} {b c d : Batch}

def described (b : Batch) : List Nat := b.mutations.toList.flatMap Mutation.described

theorem described_push (b : Batch) (m : Mutation) :
    (b.push m).described = b.described ++ m.described := by
  simp [described, push]

theorem mem_described {id : Nat} :
    id ∈ b.described ↔ ∃ m ∈ b.mutations.toList, id ∈ m.described := by
  rw [described, List.mem_flatMap]

structure Numbers (objects : List (List (String × Json))) (b c : Batch) : Prop where
  next : c.nextId = b.nextId + objects.length
  described : c.described = b.described ++ Json.describedFrom b.nextId objects

theorem Numbers.refl (b : Batch) : Numbers [] b b := ⟨rfl, by simp [Json.describedFrom]⟩

theorem Numbers.append {first others : List (List (String × Json))} (hbc : Numbers first b c)
    (hcd : Numbers others c d) : Numbers (first ++ others) b d := by
  constructor
  · rw [hcd.next, hbc.next, List.length_append, Nat.add_assoc]
  · rw [hcd.described, hbc.described, Json.describedFrom_append, hbc.next, List.append_assoc]

theorem pushObject_numbers {parent : Option Nat} {relation : Option String}
    {fields : List (String × Json)} {properties : List (String × Value)}
    (hproperties : propertiesOf fields = .ok properties)
    (h : pushObject rootLabel parent relation b.nextId properties b.allocate = .ok c) :
    Numbers [fields] b c := by
  have hempty := isEmpty_propertiesOf hproperties
  unfold pushObject at h
  by_cases hnone : properties.isEmpty = true
  · rw [hnone, eq_comm, Bool.not_eq_true'] at hempty
    simp only [hnone, if_true, pure, Except.pure] at h
    cases h
    exact ⟨rfl, by simp [Json.describedFrom, hempty, allocate, described]⟩
  · rw [Bool.not_eq_true] at hnone
    rw [hnone, eq_comm, Bool.not_eq_false'] at hempty
    simp only [hnone, Bool.false_eq_true, if_false] at h
    obtain ⟨label, _, h⟩ := bind_eq_ok.mp h
    have hnode : Numbers [fields] b (b.allocate.push (.mergeNode b.nextId label properties)) := by
      refine ⟨rfl, ?_⟩
      rw [described_push]
      simp [Json.describedFrom, hempty, allocate, described, Mutation.described]
    split at h
    case h_1 parent relation =>
      obtain ⟨edgeType, _, h⟩ := bind_eq_ok.mp h
      cases h
      refine ⟨hnode.next, ?_⟩
      rw [described_push, hnode.described]
      simp [Mutation.described]
    case h_2 =>
      cases h
      exact hnode

mutual

theorem compileInto_numbers (json : Json) {parent : Option Nat} {relation : Option String}
    {b c : Batch} (h : compileInto rootLabel parent relation json b = .ok c) :
    Numbers json.objects b c := by
  match json with
  | .object fields =>
    obtain ⟨properties, hproperties, h⟩ := bind_eq_ok.mp h
    obtain ⟨d, hpush, h⟩ := bind_eq_ok.mp h
    exact (pushObject_numbers hproperties hpush).append (compileFields_numbers fields h)
  | .array items => exact compileItems_numbers items h
  | .null | .bool _ | .integer _ _ | .float _ | .string _ =>
    cases h
    exact .refl b

theorem compileItems_numbers (items : List Json) {parent : Option Nat} {relation : Option String}
    {b c : Batch} (h : compileItems rootLabel parent relation items b = .ok c) :
    Numbers (Json.itemObjects items) b c := by
  match items with
  | [] =>
    cases h
    exact .refl b
  | item :: rest =>
    obtain ⟨d, hitem, hrest⟩ := bind_eq_ok.mp h
    exact (compileInto_numbers item hitem).append (compileItems_numbers rest hrest)

theorem compileFields_numbers (fields : List (String × Json)) {id : Nat} {b c : Batch}
    (h : compileFields rootLabel id fields b = .ok c) :
    Numbers (Json.fieldObjects fields) b c := by
  match fields with
  | [] =>
    cases h
    exact .refl b
  | (key, value) :: rest =>
    obtain ⟨d, hvalue, hrest⟩ := bind_eq_ok.mp h
    exact (compileInto_numbers value hvalue).append (compileFields_numbers rest hrest)

end

theorem Execution.child_named (h : Execution rootLabel objects .empty b) {child parent : Nat}
    {edgeType : String} (hmem : .mergeEdge child edgeType parent ∈ b.mutations.toList) :
    ∃ relation properties, edgeType = toEdgeType relation ∧
      .mergeNode child (toLabel relation) properties ∈ b.mutations.toList := by
  induction h with
  | refl => cases hmem
  | @tail c d _ hstep ih =>
    have hbefore : .mergeEdge child edgeType parent ∈ c.mutations.toList →
        ∃ relation properties, edgeType = toEdgeType relation ∧
          .mergeNode child (toLabel relation) properties ∈ d.mutations.toList := by
      intro hc
      obtain ⟨relation, properties, htype, hnode⟩ := ih hc
      exact ⟨relation, properties, htype, hstep.mutations_subset hnode⟩
    cases hstep with
    | bare => exact hbefore hmem
    | root =>
      apply hbefore
      simpa [push, allocate] using hmem
    | @child fields properties _ relation =>
      have hcases : .mergeEdge child edgeType parent ∈ c.mutations.toList ∨
          child = c.nextId ∧ edgeType = toEdgeType relation := by
        have hpushed := by simpa [push, allocate] using hmem
        rcases hpushed with hc | ⟨hchild, htype, _⟩
        · exact .inl (Array.mem_toList_iff.mpr hc)
        · exact .inr ⟨hchild, htype⟩
      rcases hcases with hc | ⟨rfl, rfl⟩
      · exact hbefore hc
      · exact ⟨relation, properties, rfl, by simp [push]⟩

theorem Execution.child_described (h : Execution rootLabel objects .empty b) {child parent : Nat}
    {edgeType : String} (hmem : .mergeEdge child edgeType parent ∈ b.mutations.toList) :
    child ∈ b.described := by
  obtain ⟨relation, properties, _, hnode⟩ := h.child_named hmem
  exact mem_described.mpr ⟨_, hnode, List.mem_singleton_self _⟩

end Batch

variable {rootLabel : String} {document : Json} {b : Batch}

theorem compile_of_structural {document : Json} (h : document.isStructural = true) :
    compile rootLabel document = compileInto rootLabel none none document .empty := by
  cases document with
  | array | object => rfl
  | null | bool | integer | float | string => cases h

theorem numbers_of_compile (h : compile rootLabel document = .ok b) :
    Batch.Numbers document.objects .empty b := by
  unfold compile at h
  split at h
  · exact Batch.compileInto_numbers _ h
  · exact Batch.compileInto_numbers _ h
  · cases h

theorem nextId_of_compile (h : compile rootLabel document = .ok b) :
    b.nextId = document.objects.length := by
  rw [(numbers_of_compile h).next]
  exact Nat.zero_add _

/-- The number of an object is its place in the document. -/
theorem described_of_compile (h : compile rootLabel document = .ok b) {id : Nat} :
    id ∈ b.described ↔
      ∃ fields, document.objects[id]? = some fields ∧ Json.hasProperties fields = true := by
  rw [(numbers_of_compile h).described]
  show id ∈ Json.describedFrom 0 document.objects ↔ _
  rw [Json.mem_describedFrom]
  simp

theorem not_described_of_compile (h : compile rootLabel document = .ok b) {id : Nat}
    {fields : List (String × Json)} (hfields : document.objects[id]? = some fields)
    (hnone : Json.hasProperties fields = false) : ∀ m ∈ b.mutations.toList, id ∉ m.described := by
  intro m hm hid
  obtain ⟨other, hother, hsome⟩ := (described_of_compile h).mp
    (Batch.mem_described.mpr ⟨m, hm, hid⟩)
  rw [hfields] at hother
  cases hother
  rw [hnone] at hsome
  cases hsome

end FieldGraph
