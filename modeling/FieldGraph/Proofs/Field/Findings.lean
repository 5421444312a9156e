import FieldGraph.Proofs.Field.Resolution

/-!
# Findings

What an execution comes upon at each position of the response, before it is told as data and
errors. Data and errors are both read off the findings, so they agree on the positions.
-/
namespace FieldGraph

variable {σ : Type} {schema : Schema} {store : Store σ}

/-- What stands at a position of a response, with what lies below it. -/
inductive Finding where
  | typeName (name : String)
  | failed (e : GraphError)
  | scalar (value : Value)
  /-- A single reference that leads nowhere. -/
  | absent
  | object (fields : List (String × Finding))
  | list (items : List Finding)

namespace Finding

mutual

def data : Finding → Json
  | .typeName name => .string name
  | .failed _ => .null
  | .scalar value => value.toJson
  | .absent => .null
  | .object fields => .object (Json.overlay [] (fieldsData fields))
  | .list items => .array (itemsData items)

def fieldsData : List (String × Finding) → List (String × Json)
  | [] => []
  | (key, finding) :: rest => (key, finding.data) :: fieldsData rest

def itemsData : List Finding → List Json
  | [] => []
  | finding :: rest => finding.data :: itemsData rest

end

mutual

def errors (path : ResponsePath) : Finding → List FieldError
  | .typeName _ => []
  | .failed e => [⟨e.forCaller.message, path⟩]
  | .scalar _ => []
  | .absent => []
  | .object fields => fieldsErrors path fields
  | .list items => itemsErrors path 0 items

def fieldsErrors (path : ResponsePath) : List (String × Finding) → List FieldError
  | [] => []
  | (key, finding) :: rest => finding.errors (path ++ [.key key]) ++ fieldsErrors path rest

def itemsErrors (path : ResponsePath) (start : Nat) : List Finding → List FieldError
  | [] => []
  | finding :: rest =>
    finding.errors (path ++ [.index start]) ++ itemsErrors path (start + 1) rest

end

def children : Finding → List (PathSegment × Finding)
  | .object fields => fields.map fun (key, f) => (.key key, f)
  | .list items => items.zipIdx.map fun (f, i) => (.index i, f)
  | _ => []

/-- The second finding stands at the given path below the first. -/
inductive At : Finding → ResponsePath → Finding → Prop
  | here (f : Finding) : At f [] f
  | child {f g h : Finding} {step : PathSegment} {path : ResponsePath}
      (mem : (step, g) ∈ f.children) (rest : At g path h) : At f (step :: path) h

theorem sizeOf_child {f : Finding} {child : PathSegment × Finding} (h : child ∈ f.children) :
    sizeOf child.2 < sizeOf f := by
  cases f with
  | object fields =>
    obtain ⟨⟨key, g⟩, hmem, rfl⟩ := List.mem_map.mp h
    have hlt := List.sizeOf_lt_of_mem hmem
    simp only [Prod.mk.sizeOf_spec, object.sizeOf_spec] at hlt ⊢
    omega
  | list items =>
    obtain ⟨⟨g, i⟩, hmem, rfl⟩ := List.mem_map.mp h
    have hlt := List.sizeOf_lt_of_mem (List.fst_mem_of_mem_zipIdx hmem)
    dsimp only at hlt
    simp only [list.sizeOf_spec]
    omega
  | typeName name => cases h
  | failed e => cases h
  | scalar value => cases h
  | absent => cases h

/-- What holds of a finding if it holds of all findings right below holds of every finding. -/
theorem induction {P : Finding → Prop}
    (below : ∀ f : Finding, (∀ child ∈ f.children, P child.2) → P f) (f : Finding) : P f :=
  below f fun child _ => induction below child.2
termination_by sizeOf f
decreasing_by exact sizeOf_child ‹_›

theorem fieldsData_eq_map (fields : List (String × Finding)) :
    fieldsData fields = fields.map fun (key, f) => (key, f.data) := by
  induction fields with
  | nil => rfl
  | cons field fields ih => rw [fieldsData, ih, List.map_cons]

theorem itemsData_eq_map (items : List Finding) : itemsData items = items.map data := by
  induction items with
  | nil => rfl
  | cons item items ih => rw [itemsData, ih, List.map_cons]

def ownErrors (path : ResponsePath) : Finding → List FieldError
  | .failed e => [⟨e.forCaller.message, path⟩]
  | _ => []

theorem itemsErrors_eq (path : ResponsePath) (start : Nat) (items : List Finding) :
    itemsErrors path start items =
      (items.zipIdx start).flatMap fun (f, i) => f.errors (path ++ [.index i]) := by
  induction items generalizing start with
  | nil => rfl
  | cons item items ih => rw [itemsErrors, ih, List.zipIdx_cons, List.flatMap_cons]

theorem fieldsErrors_eq (path : ResponsePath) (fields : List (String × Finding)) :
    fieldsErrors path fields = fields.flatMap fun (key, f) => f.errors (path ++ [.key key]) := by
  induction fields with
  | nil => rfl
  | cons field fields ih => rw [fieldsErrors, ih, List.flatMap_cons]

theorem errors_eq (path : ResponsePath) (f : Finding) :
    f.errors path = f.ownErrors path ++
      f.children.flatMap fun child => child.2.errors (path ++ [child.1]) := by
  cases f with
  | object fields =>
    rw [errors, fieldsErrors_eq, ownErrors, children, List.flatMap_map, List.nil_append]
    intro e heq
    cases heq
  | list items =>
    rw [errors, itemsErrors_eq, ownErrors, children, List.flatMap_map, List.nil_append]
    intro e heq
    cases heq
  | failed e => rfl
  | typeName name => rfl
  | scalar value => rfl
  | absent => rfl

end Finding

def exploreNode (schema : Schema) (s : Selection) (declared : String) (node : NodeRef)
    (fieldsOf : String → StateM σ (List (String × Finding))) : StateM σ Finding :=
  match nodeType schema s declared node with
  | .error fault => return .failed (.invalidOperation (.field fault))
  | .ok concrete => return .object (← fieldsOf concrete)

mutual

def exploreField (schema : Schema) (store : Store σ) (typeName : String)
    (source : Option NodeRef) : Selection → StateM σ Finding
  | ⟨name, shownAs, arguments, selections⟩ => do
    match ← resolveField schema store typeName source ⟨name, shownAs, arguments, selections⟩ with
    | .typeName => return .typeName typeName
    | .failed e => return .failed e
    | .scalar value => return .scalar value
    | .absent => return .absent
    | .single declared node =>
      exploreNode schema ⟨name, shownAs, arguments, selections⟩ declared node fun concrete =>
        exploreFields schema store concrete (some node) selections
    | .many declared nodes =>
      return .list (← nodes.mapM fun node =>
        exploreNode schema ⟨name, shownAs, arguments, selections⟩ declared node fun concrete =>
          exploreFields schema store concrete (some node) selections)

def exploreFields (schema : Schema) (store : Store σ) (typeName : String)
    (source : Option NodeRef) : List Selection → StateM σ (List (String × Finding))
  | [] => return []
  | s :: rest => do
    let finding ← exploreField schema store typeName source s
    let others ← exploreFields schema store typeName source rest
    return (s.responseKey, finding) :: others

end

def explore (schema : Schema) (store : Store σ) (selections : List Selection) :
    StateM σ Finding :=
  return .object (← exploreFields schema store Schema.queryType none selections)

open Execution

theorem forNodes_report {f : Nat → NodeRef → StateM σ (Outcome Json)}
    {g : NodeRef → StateM σ Finding} {path : ResponsePath}
    (h : ∀ i node, f i node = do
      let x ← g node
      return (x.data, x.errors (path ++ [.index i])))
    (start : Nat) (nodes : List NodeRef) :
    forNodes f start nodes = do
      let xs ← nodes.mapM g
      return (Finding.itemsData xs, Finding.itemsErrors path start xs) := by
  induction nodes generalizing start with
  | nil => rfl
  | cons node nodes ih =>
    rw [forNodes, h, ih, List.mapM_cons]
    simp only [bind_assoc, pure_bind]
    rfl

theorem nodeOutcome_report {s : Selection}
    (below : ∀ typeName source path, executeFields schema store typeName source path s.selections =
      do
        let fields ← exploreFields schema store typeName source s.selections
        return (Finding.fieldsData fields, Finding.fieldsErrors path fields))
    (declared : String) (node : NodeRef) (path : ResponsePath) :
    nodeOutcome schema store s declared node path = do
      let x ← exploreNode schema s declared node fun concrete =>
        exploreFields schema store concrete (some node) s.selections
      return (x.data, x.errors path) := by
  unfold nodeOutcome exploreNode
  cases nodeType schema s declared node with
  | error fault => rfl
  | ok concrete =>
    dsimp only
    rw [below]
    simp only [bind_assoc, pure_bind]
    rfl

theorem executeFields_report {selections : List Selection}
    (each : ∀ s ∈ selections, ∀ typeName source above,
      executeField schema store typeName source above s = do
        let x ← exploreField schema store typeName source s
        return (x.data, x.errors (above ++ [.key s.responseKey])))
    (typeName : String) (source : Option NodeRef) (path : ResponsePath) :
    executeFields schema store typeName source path selections = do
      let fields ← exploreFields schema store typeName source selections
      return (Finding.fieldsData fields, Finding.fieldsErrors path fields) := by
  induction selections with
  | nil => rfl
  | cons s selections ih =>
    have hrest := ih fun other hother => each other (List.mem_cons_of_mem _ hother)
    rw [executeFields, exploreFields, each s List.mem_cons_self, hrest]
    simp only [bind_assoc, pure_bind]
    rfl

theorem executeField_report (s : Selection) (typeName : String) (source : Option NodeRef)
    (above : ResponsePath) :
    executeField schema store typeName source above s = do
      let x ← exploreField schema store typeName source s
      return (x.data, x.errors (above ++ [.key s.responseKey])) := by
  induction s using Selection.induction generalizing typeName source above with
  | below s ih =>
    have hnode := nodeOutcome_report (executeFields_report ih)
    rw [executeField_eq]
    obtain ⟨name, shownAs, arguments, selections⟩ := s
    rw [exploreField, bind_assoc]
    apply bind_congr
    intro resolution
    cases resolution with
    | typeName => rfl
    | failed e => rfl
    | scalar value => rfl
    | absent => rfl
    | single declared node => exact hnode declared node _
    | many declared nodes =>
      have hitems := fun path => forNodes_report
        (fun i node => hnode declared node (path ++ [.index i])) 0 nodes
      dsimp only [completeField]
      rw [hitems]
      simp only [bind_assoc, pure_bind]
      rfl

theorem execute_report (selections : List Selection) :
    execute schema store selections = do
      let found ← explore schema store selections
      return ⟨found.data, found.errors []⟩ := by
  rw [execute, explore, executeFields_report fun s _ => executeField_report s]
  simp only [bind_assoc, pure_bind]
  rfl

end FieldGraph
