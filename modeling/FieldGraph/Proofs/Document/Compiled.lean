import FieldGraph.Document.Compile
import FieldGraph.Proofs.Outcome
import Mathlib.Logic.Relation

/-!
# The steps of compiling

Compiling a document takes one step for every object in it. A step takes a number and adds the
statements of the object, and what all steps preserve holds of every compiled document.
-/
namespace FieldGraph

namespace Json

mutual

/-- The fields of every object in a value, an object before those in its fields. -/
def objects : Json → List (List (String × Json))
  | .object fields => fields :: fieldObjects fields
  | .array items => itemObjects items
  | _ => []

def itemObjects : List Json → List (List (String × Json))
  | [] => []
  | item :: rest => objects item ++ itemObjects rest

def fieldObjects : List (String × Json) → List (List (String × Json))
  | [] => []
  | (_, value) :: rest => objects value ++ fieldObjects rest

end

def DistinctKeys (objects : List (List (String × Json))) : Prop :=
  ∀ fields ∈ objects, (fields.map Prod.fst).Nodup

theorem distinctKeys_nil : DistinctKeys [] := by
  simp [DistinctKeys]

theorem DistinctKeys.append {first others : List (List (String × Json))}
    (hfirst : DistinctKeys first) (hothers : DistinctKeys others) :
    DistinctKeys (first ++ others) := by
  intro fields hfields
  rcases List.mem_append.mp hfields with hfields | hfields
  · exact hfirst fields hfields
  · exact hothers fields hfields

mutual

theorem distinctKeys_of_wellFormed (document : Json) (h : document.WellFormed) :
    DistinctKeys document.objects := by
  match document with
  | .object fields =>
    intro other hother
    rcases List.mem_cons.mp hother with rfl | hother
    · exact h.1
    · exact distinctKeys_fieldObjects fields h.2 other hother
  | .array items => exact distinctKeys_itemObjects items h
  | .null | .bool _ | .integer _ _ | .float _ | .string _ => exact distinctKeys_nil

theorem distinctKeys_itemObjects (items : List Json) (h : WellFormedItems items) :
    DistinctKeys (itemObjects items) := by
  match items with
  | [] => exact distinctKeys_nil
  | item :: rest =>
    exact (distinctKeys_of_wellFormed item h.1).append (distinctKeys_itemObjects rest h.2)

theorem distinctKeys_fieldObjects (fields : List (String × Json)) (h : WellFormedFields fields) :
    DistinctKeys (fieldObjects fields) := by
  match fields with
  | [] => exact distinctKeys_nil
  | (_, value) :: rest =>
    exact (distinctKeys_of_wellFormed value h.1).append (distinctKeys_fieldObjects rest h.2)

end

end Json

theorem checkedName_ok {name name' : String} {role : NameRole}
    (h : checkedName name role = .ok name') : name' = name ∧ isPlainIdentifier name = true := by
  unfold checkedName at h
  split at h
  · cases h
    exact ⟨rfl, ‹_›⟩
  · cases h

theorem propertiesOf_cons {key : String} {json : Json} {rest : List (String × Json)}
    {properties : List (String × Value)}
    (h : propertiesOf ((key, json) :: rest) = .ok properties) :
    propertiesOf rest = .ok properties ∨
      ∃ value others, json ≠ .null ∧ Value.ofScalar? json = some value ∧
        isPlainIdentifier key = true ∧ propertiesOf rest = .ok others ∧
        properties = (key, value) :: others := by
  rw [propertiesOf.eq_def] at h
  dsimp only at h
  split at h
  case h_1 => exact .inl h
  case h_2 hnull =>
    split at h
    case h_1 => exact .inl h
    case h_2 value hvalue =>
      cases hkey : checkedName key .propertyKey with
      | error => simp [hkey, bind, Except.bind] at h
      | ok name =>
        obtain ⟨rfl, hplain⟩ := checkedName_ok hkey
        cases hrest : propertiesOf rest with
        | error => simp [hkey, hrest, bind, Except.bind] at h
        | ok others =>
          have hall : (name, value) :: others = properties := by
            simpa [hkey, hrest, bind, Except.bind, pure, Except.pure] using h
          exact .inr ⟨value, others, hnull, hvalue, hplain, rfl, hall.symm⟩

theorem mem_propertiesOf {fields : List (String × Json)} {properties : List (String × Value)}
    (h : propertiesOf fields = .ok properties) {property : String × Value}
    (hmem : property ∈ properties) :
    isPlainIdentifier property.1 = true ∧
      ∃ json, (property.1, json) ∈ fields ∧ json ≠ .null ∧
        Value.ofScalar? json = some property.2 := by
  induction fields generalizing properties with
  | nil =>
    cases h
    cases hmem
  | cons field rest ih =>
    obtain ⟨key, json⟩ := field
    rcases propertiesOf_cons h with hrest | ⟨value, others, hnull, hvalue, hkey, hrest, rfl⟩
    · obtain ⟨hplain, other, hother, hscalar⟩ := ih hrest hmem
      exact ⟨hplain, other, List.mem_cons_of_mem _ hother, hscalar⟩
    · rcases List.mem_cons.mp hmem with rfl | hmem
      · exact ⟨hkey, json, List.mem_cons_self, hnull, hvalue⟩
      · obtain ⟨hplain, other, hother, hscalar⟩ := ih hrest hmem
        exact ⟨hplain, other, List.mem_cons_of_mem _ hother, hscalar⟩

theorem keys_propertiesOf {fields : List (String × Json)} {properties : List (String × Value)}
    (h : propertiesOf fields = .ok properties) :
    List.Sublist (properties.map Prod.fst) (fields.map Prod.fst) := by
  induction fields generalizing properties with
  | nil =>
    cases h
    exact List.Sublist.refl _
  | cons field rest ih =>
    rcases propertiesOf_cons h with hrest | ⟨value, others, _, _, _, hrest, rfl⟩
    · exact (ih hrest).cons _
    · exact (ih hrest).cons_cons _

namespace Batch

/-- One object: without properties it takes a number only, and else it adds its node, and its edge
to the parent if it is not a root. -/
inductive Step (rootLabel : String) (objects : List (List (String × Json))) (b : Batch) :
    Batch → Prop
  | bare : Step rootLabel objects b b.allocate
  | root {fields : List (String × Json)} {properties : List (String × Value)}
      (hfields : fields ∈ objects) (hproperties : propertiesOf fields = .ok properties)
      (hne : properties ≠ []) (hlabel : isPlainIdentifier rootLabel = true) :
      Step rootLabel objects b (b.allocate.push (.mergeNode b.nextId rootLabel properties))
  | child {fields : List (String × Json)} {properties : List (String × Value)} {parent : Nat}
      {relation : String} (hfields : fields ∈ objects)
      (hproperties : propertiesOf fields = .ok properties) (hne : properties ≠ [])
      (hlabel : isPlainIdentifier (toLabel relation) = true)
      (htype : isPlainIdentifier (toEdgeType relation) = true) (hparent : parent < b.nextId) :
      Step rootLabel objects b
        ((b.allocate.push (.mergeNode b.nextId (toLabel relation) properties)).push
          (.mergeEdge b.nextId (toEdgeType relation) parent))

abbrev Execution (rootLabel : String) (objects : List (List (String × Json))) :
    Batch → Batch → Prop :=
  Relation.ReflTransGen (Step rootLabel objects)

variable {rootLabel : String} {objects : List (List (String × Json))} {b c : Batch}

theorem Step.nextId (h : Step rootLabel objects b c) : c.nextId = b.nextId + 1 := by
  cases h <;> rfl

theorem Step.mutations_subset (h : Step rootLabel objects b c) :
    b.mutations.toList ⊆ c.mutations.toList := by
  intro m hm
  cases h with
  | bare => exact hm
  | root => simp [push, allocate, Array.mem_toList_iff.mp hm]
  | child => simp [push, allocate, Array.mem_toList_iff.mp hm]

theorem Execution.nextId_le (h : Execution rootLabel objects b c) : b.nextId ≤ c.nextId := by
  induction h with
  | refl => exact Nat.le_refl _
  | tail _ hstep ih =>
    rw [hstep.nextId]
    omega

theorem step_of_pushObject {fields : List (String × Json)} {properties : List (String × Value)}
    {link : Option (Nat × String)} (hfields : fields ∈ objects)
    (hproperties : propertiesOf fields = .ok properties)
    (hparent : ∀ l ∈ link, l.1 < b.nextId)
    (h : pushObject rootLabel (link.map Prod.fst) (link.map Prod.snd) b.nextId properties
      b.allocate = .ok c) : Step rootLabel objects b c := by
  unfold pushObject at h
  by_cases hempty : properties.isEmpty = true
  · have hc : b.allocate = c := by simpa [hempty, pure, Except.pure] using h
    exact hc ▸ .bare
  · have hne : properties ≠ [] := by simpa using hempty
    cases link with
    | none =>
      cases hlabel : checkedName rootLabel .label with
      | error => simp [hempty, hlabel, labelOf, bind, Except.bind] at h
      | ok label =>
        obtain ⟨heq, hplain⟩ := checkedName_ok hlabel
        have hc : b.allocate.push (.mergeNode b.nextId rootLabel properties) = c := by
          simpa [hempty, hlabel, heq, labelOf, bind, Except.bind, pure, Except.pure] using h
        exact hc ▸ .root hfields hproperties hne hplain
    | some link =>
      obtain ⟨parent, relation⟩ := link
      cases hlabel : checkedName (toLabel relation) .label with
      | error => simp [hempty, hlabel, labelOf, bind, Except.bind] at h
      | ok label =>
        obtain ⟨heq, hplain⟩ := checkedName_ok hlabel
        cases htype : checkedName (toEdgeType relation) .relationshipType with
        | error => simp [hempty, hlabel, htype, labelOf, bind, Except.bind] at h
        | ok edgeType =>
          obtain ⟨heq', hplain'⟩ := checkedName_ok htype
          have hc : (b.allocate.push (.mergeNode b.nextId (toLabel relation) properties)).push
              (.mergeEdge b.nextId (toEdgeType relation) parent) = c := by
            simpa [hempty, hlabel, htype, heq, heq', labelOf, bind, Except.bind, pure,
              Except.pure] using h
          exact hc ▸ .child hfields hproperties hne hplain hplain' (hparent _ rfl)

mutual

theorem execution_of_compileInto (json : Json) (link : Option (Nat × String)) {b c : Batch}
    (hobjects : ∀ fields ∈ json.objects, fields ∈ objects) (hparent : ∀ l ∈ link, l.1 < b.nextId)
    (h : compileInto rootLabel (link.map Prod.fst) (link.map Prod.snd) json b = .ok c) :
    Execution rootLabel objects b c := by
  match json with
  | .object fields =>
    obtain ⟨properties, hproperties, h⟩ := bind_eq_ok.mp h
    obtain ⟨d, hpush, h⟩ := bind_eq_ok.mp h
    have hstep := step_of_pushObject (hobjects fields List.mem_cons_self) hproperties hparent hpush
    have hid : b.nextId < d.nextId := by
      rw [hstep.nextId]
      omega
    exact .head hstep (execution_of_compileFields fields
      (fun other hother => hobjects other (List.mem_cons_of_mem _ hother)) hid h)
  | .array items => exact execution_of_compileItems items link hobjects hparent h
  | .null | .bool _ | .integer _ _ | .float _ | .string _ =>
    cases h
    exact .refl

theorem execution_of_compileItems (items : List Json) (link : Option (Nat × String)) {b c : Batch}
    (hobjects : ∀ fields ∈ Json.itemObjects items, fields ∈ objects)
    (hparent : ∀ l ∈ link, l.1 < b.nextId)
    (h : compileItems rootLabel (link.map Prod.fst) (link.map Prod.snd) items b = .ok c) :
    Execution rootLabel objects b c := by
  match items with
  | [] =>
    cases h
    exact .refl
  | item :: rest =>
    obtain ⟨d, hitem, hrest⟩ := bind_eq_ok.mp h
    have hfirst := execution_of_compileInto item link
      (fun fields hf => hobjects fields (List.mem_append_left _ hf)) hparent hitem
    exact hfirst.trans (execution_of_compileItems rest link
      (fun fields hf => hobjects fields (List.mem_append_right _ hf))
      (fun l hl => Nat.lt_of_lt_of_le (hparent l hl) hfirst.nextId_le) hrest)

theorem execution_of_compileFields (fields : List (String × Json)) {id : Nat} {b c : Batch}
    (hobjects : ∀ other ∈ Json.fieldObjects fields, other ∈ objects) (hid : id < b.nextId)
    (h : compileFields rootLabel id fields b = .ok c) : Execution rootLabel objects b c := by
  match fields with
  | [] =>
    cases h
    exact .refl
  | (key, value) :: rest =>
    obtain ⟨d, hvalue, hrest⟩ := bind_eq_ok.mp h
    have hfirst := execution_of_compileInto value (some (id, key))
      (fun other hother => hobjects other (List.mem_append_left _ hother))
      (fun l hl => by cases hl; exact hid) hvalue
    exact hfirst.trans (execution_of_compileFields rest
      (fun other hother => hobjects other (List.mem_append_right _ hother))
      (Nat.lt_of_lt_of_le hid hfirst.nextId_le) hrest)

end

end Batch

namespace Mutation

/-- The numbers of the nodes that a statement is about. -/
def ids : Mutation → List Nat
  | .mergeNode id _ _ => [id]
  | .mergeEdge child _ parent => [child, parent]
  | .raw _ => []

def described : Mutation → List Nat
  | .mergeNode id _ _ => [id]
  | _ => []

/-- A node is described before any other statement is about it. -/
def DescribedFirst (ms : List Mutation) : Prop :=
  ms.Pairwise fun earlier later => ∀ id ∈ later.described, id ∉ earlier.ids

/-- What describes a number that a statement is about comes before the statement. -/
theorem DescribedFirst.mem_front {front back : List Mutation} {m n : Mutation} {id : Nat}
    (h : DescribedFirst (front ++ m :: back)) (hn : n ∈ front ++ m :: back)
    (hid : id ∈ n.described) (hmem : id ∈ m.ids) (hother : id ∉ m.described) : n ∈ front := by
  rcases List.mem_append.mp hn with hn | hn
  · exact hn
  · have hafter := (List.pairwise_append.mp h).2.1
    rcases List.mem_cons.mp hn with rfl | hn
    · exact absurd hid hother
    · exact absurd hmem ((List.pairwise_cons.mp hafter).1 n hn id hid)

inductive Compiled (objects : List (List (String × Json))) : Mutation → Prop
  | node {id : Nat} {label : String} {fields : List (String × Json)}
      {properties : List (String × Value)} (hfields : fields ∈ objects)
      (hproperties : propertiesOf fields = .ok properties) (hne : properties ≠ [])
      (hlabel : isPlainIdentifier label = true) :
      Compiled objects (.mergeNode id label properties)
  | edge {child parent : Nat} {edgeType : String} (htype : isPlainIdentifier edgeType = true) :
      Compiled objects (.mergeEdge child edgeType parent)

end Mutation

namespace Batch

variable {rootLabel : String} {objects : List (List (String × Json))} {b c : Batch}

structure Invariant (objects : List (List (String × Json))) (b : Batch) : Prop where
  compiled : ∀ m ∈ b.mutations.toList, m.Compiled objects
  below : ∀ m ∈ b.mutations.toList, ∀ id ∈ m.ids, id < b.nextId
  fresh : Mutation.DescribedFirst b.mutations.toList

theorem Invariant.allocate (h : Invariant objects b) : Invariant objects b.allocate :=
  ⟨h.compiled, fun m hm id hid => Nat.lt_succ_of_lt (h.below m hm id hid), h.fresh⟩

theorem Invariant.push (h : Invariant objects b) {m : Mutation} (hm : m.Compiled objects)
    (hids : ∀ id ∈ m.ids, id < b.nextId)
    (hfresh : ∀ earlier ∈ b.mutations.toList, ∀ id ∈ m.described, id ∉ earlier.ids) :
    Invariant objects (b.push m) := by
  have hlist : (b.push m).mutations.toList = b.mutations.toList ++ [m] := by
    simp [Batch.push]
  refine ⟨?_, ?_, ?_⟩
  · rw [hlist]
    intro n hn
    rcases List.mem_append.mp hn with hn | hn
    · exact h.compiled n hn
    · rwa [List.mem_singleton.mp hn]
  · rw [hlist]
    intro n hn
    rcases List.mem_append.mp hn with hn | hn
    · exact h.below n hn
    · rwa [List.mem_singleton.mp hn]
  · rw [hlist]
    refine List.pairwise_append.mpr ⟨h.fresh, List.pairwise_singleton _ _, ?_⟩
    intro earlier he later hl
    rw [List.mem_singleton.mp hl]
    exact hfresh earlier he

theorem Step.invariant (hstep : Step rootLabel objects b c) (h : Invariant objects b) :
    Invariant objects c := by
  have hnode : ∀ {fields properties label}, fields ∈ objects →
      propertiesOf fields = .ok properties → properties ≠ [] → isPlainIdentifier label = true →
      Invariant objects (b.allocate.push (.mergeNode b.nextId label properties)) := by
    intro fields properties label hfields hproperties hne hlabel
    refine h.allocate.push (.node hfields hproperties hne hlabel) ?_ ?_
    · intro id hid
      rw [List.mem_singleton.mp hid]
      exact Nat.lt_succ_self _
    · intro earlier he id hid hmem
      rw [List.mem_singleton.mp hid] at hmem
      exact Nat.lt_irrefl _ (h.below earlier he _ hmem)
  cases hstep with
  | bare => exact h.allocate
  | root hfields hproperties hne hlabel => exact hnode hfields hproperties hne hlabel
  | child hfields hproperties hne hlabel htype hparent =>
    refine (hnode hfields hproperties hne hlabel).push (.edge htype) ?_ ?_
    · intro id hid
      have hnext : id = b.nextId ∨ id < b.nextId := by
        rcases List.mem_cons.mp hid with rfl | hid
        · exact .inl rfl
        · rw [List.mem_singleton.mp hid]
          exact .inr hparent
      show id < b.nextId + 1
      omega
    · intro earlier _ id hid
      cases hid

theorem Execution.invariant (h : Execution rootLabel objects .empty b) : Invariant objects b := by
  induction h with
  | refl => exact ⟨by simp [empty], by simp [empty], List.Pairwise.nil⟩
  | tail _ hstep ih => exact hstep.invariant ih

end Batch

/-- Compiling takes the steps of the objects of the document. -/
theorem execution_of_compile {rootLabel : String} {document : Json} {b : Batch}
    (h : compile rootLabel document = .ok b) :
    Batch.Execution rootLabel document.objects .empty b := by
  unfold compile at h
  split at h
  · exact Batch.execution_of_compileInto _ none (fun _ h => h) (by simp) h
  · exact Batch.execution_of_compileInto _ none (fun _ h => h) (by simp) h
  · cases h

theorem invariant_of_compile {rootLabel : String} {document : Json} {b : Batch}
    (h : compile rootLabel document = .ok b) : b.Invariant document.objects :=
  (execution_of_compile h).invariant

end FieldGraph
