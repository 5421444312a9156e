import FieldGraph.Field.Execution

/-!
# Resolving one field and completing it

The execution of a field is the work of its resolver, the only part that a store takes part in, and
the completion of what the resolver yields. Two stores that cannot be told apart by the statements
of a schema therefore give the same responses.
-/
namespace FieldGraph

variable {σ τ α β γ δ : Type} {schema : Schema} {s : Store σ} {t : Store τ}

theorem Selection.induction {P : Selection → Prop}
    (below : ∀ s : Selection, (∀ t ∈ s.selections, P t) → P s) : ∀ s : Selection, P s
  | ⟨name, shownAs, arguments, selections⟩ =>
    below ⟨name, shownAs, arguments, selections⟩ fun t _ => Selection.induction below t
termination_by s => sizeOf s
decreasing_by
  have hlt := List.sizeOf_lt_of_mem ‹t ∈ _›
  simp only [Selection.mk.sizeOf_spec] at hlt ⊢
  omega

/-- What the resolver of a selected field yields, compared with the declared type. -/
inductive Resolution where
  | typeName
  | failed (e : GraphError)
  | scalar (value : Value)
  | absent
  | single (declared : String) (node : NodeRef)
  | many (declared : String) (nodes : List NodeRef)

def Resolution.ofResolved (field : String) : FieldType → Resolved → Resolution
  | .scalar, .scalar value => .scalar value
  | .object _, .reference none => .absent
  | .object declared, .reference (some node) => .single declared node
  | .list declared, .references nodes => .many declared nodes
  | expected, got => .failed (.invalidOperation (.field (.shapeMismatch field expected got)))

def resolveField (schema : Schema) (store : Store σ) (typeName : String)
    (source : Option NodeRef) (s : Selection) : StateM σ Resolution :=
  if s.name = typenameField then return .typeName
  else
    match schema.field typeName s.name with
    | .error fault => return .failed (.invalidOperation (.field fault))
    | .ok field => do
      match ← (field.resolver.resolve store source (field.arguments s.arguments)).run with
      | .error e => return .failed e
      | .ok resolved => return .ofResolved s.name field.fieldType resolved

/-- The type of a node below a selected field, which has to ask for something of the node. -/
def nodeType (schema : Schema) (s : Selection) (declared : String) (node : NodeRef) :
    Except FieldFault String :=
  if s.selections.isEmpty then .error (.missingSelection s.name declared)
  else schema.concreteType declared node

open Execution

def nodeOutcome (schema : Schema) (store : Store σ) (s : Selection) (declared : String)
    (node : NodeRef) (path : ResponsePath) : StateM σ (Outcome Json) :=
  match nodeType schema s declared node with
  | .error fault => refuseAt path fault
  | .ok concrete => do
    let (fields, errors) ← executeFields schema store concrete (some node) path s.selections
    return (.object (Json.overlay [] fields), errors)

def completeField (schema : Schema) (store : Store σ) (typeName : String) (path : ResponsePath)
    (s : Selection) : Resolution → StateM σ (Outcome Json)
  | .typeName => succeed (.string typeName)
  | .failed e => failAt path e
  | .scalar value => succeed value.toJson
  | .absent => succeed .null
  | .single declared node => nodeOutcome schema store s declared node path
  | .many declared nodes => do
    let (values, errors) ← forNodes
      (fun i node => nodeOutcome schema store s declared node (path ++ [.index i])) 0 nodes
    return (.array values, errors)

theorem completeNode_eq (store : Store σ) (s : Selection) (declared : String) (node : NodeRef)
    (path : ResponsePath) :
    (completeNode schema s.name (!s.selections.isEmpty) declared node path fun concrete =>
      executeFields schema store concrete (some node) path s.selections) =
      nodeOutcome schema store s declared node path := by
  unfold completeNode nodeOutcome nodeType
  cases s.selections.isEmpty with
  | true => rfl
  | false => rfl

theorem executeField_eq (store : Store σ) (typeName : String) (source : Option NodeRef)
    (above : ResponsePath) (s : Selection) :
    executeField schema store typeName source above s =
      resolveField schema store typeName source s >>=
        completeField schema store typeName (above ++ [.key s.responseKey]) s := by
  obtain ⟨name, shownAs, arguments, selections⟩ := s
  unfold executeField resolveField
  by_cases hname : name = typenameField
  · simp only [hname, if_true]
    rfl
  · simp only [hname, if_false]
    cases schema.field typeName name with
    | error fault => rfl
    | ok field =>
      simp only [bind_assoc]
      apply bind_congr
      intro result
      cases result with
      | error e => rfl
      | ok resolved =>
        rw [pure_bind]
        have hnode := @completeNode_eq σ schema store ⟨name, shownAs, arguments, selections⟩
        dsimp only at hnode
        cases hfield : field.fieldType <;> cases resolved <;> try rfl
        case object.reference declared node =>
          cases node with
          | none => rfl
          | some node => exact hnode declared node _
        case list.references declared nodes =>
          dsimp only [Resolution.ofResolved, completeField]
          simp only [hnode]
          rfl

end FieldGraph
