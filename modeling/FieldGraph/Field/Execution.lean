import FieldGraph.Field.Dataset
import FieldGraph.Field.Response
import FieldGraph.Field.Selection
import FieldGraph.Value.Json

/-!
# Executing selections

Fields are resolved one after another, each with what lies below it before the next. A field that
fails becomes null and its error is kept; the others go on. What a store has to say of a failure
is not part of the error.

Fields side by side may as well be resolved at the same time. Their errors then stand in the order
in which the fields fail, where here they stand in the order of the selections. And where a store
never answers, an execution without a limit goes on waiting; here the field fails.
-/
namespace FieldGraph

def typenameField : String := "__typename"

/-- A result with the errors met on the way, in order. -/
abbrev Outcome (α : Type) := α × List FieldError

def GraphError.forCaller : GraphError → GraphError
  | .invalidOperation cause => .invalidOperation cause
  | _ => .database

namespace Execution

def succeed (value : α) : StateM σ (Outcome α) := return (value, [])

def failAt (path : ResponsePath) (e : GraphError) : StateM σ (Outcome Json) :=
  return (.null, [⟨e.forCaller.message, path⟩])

def refuseAt (path : ResponsePath) (fault : FieldFault) : StateM σ (Outcome Json) :=
  failAt path (.invalidOperation (.field fault))

/-- The results for the nodes of a list, which are numbered from `start`. -/
def forNodes (f : Nat → NodeRef → StateM σ (Outcome Json)) (start : Nat) :
    List NodeRef → StateM σ (Outcome (List Json))
  | [] => succeed []
  | node :: rest => do
    let (value, errors) ← f start node
    let (values, others) ← forNodes f (start + 1) rest
    return (value :: values, errors ++ others)

end Execution

open Execution

/-- The response object for the named fields of a node that is declared to be of a type. -/
def completeNode (schema : Schema) (field : String) (hasSelections : Bool) (declared : String)
    (node : NodeRef) (path : ResponsePath)
    (fieldsOf : String → StateM σ (Outcome (List (String × Json)))) : StateM σ (Outcome Json) :=
  if hasSelections then
    match schema.concreteType declared node with
    | .error fault => refuseAt path fault
    | .ok concrete => do
      let (fields, errors) ← fieldsOf concrete
      return (.object (Json.overlay [] fields), errors)
  else refuseAt path (.missingSelection field declared)

mutual

def executeField (schema : Schema) (store : Store σ) (typeName : String)
    (source : Option NodeRef) (above : ResponsePath) : Selection → StateM σ (Outcome Json)
  | ⟨name, shownAs, arguments, selections⟩ =>
    let path := above ++ [.key (shownAs.getD name)]
    if name = typenameField then succeed (.string typeName)
    else
      match schema.field typeName name with
      | .error fault => refuseAt path fault
      | .ok field => do
        match ← (field.resolver.resolve store source (field.arguments arguments)).run with
        | .error e => failAt path e
        | .ok resolved =>
          match field.fieldType, resolved with
          | .scalar, .scalar value => succeed value.toJson
          | .object _, .reference none => succeed .null
          | .object declared, .reference (some node) =>
            completeNode schema name (!selections.isEmpty) declared node path fun concrete =>
              executeFields schema store concrete (some node) path selections
          | .list declared, .references nodes => do
            let complete := fun i node =>
              let itemPath := path ++ [.index i]
              completeNode schema name (!selections.isEmpty) declared node itemPath fun concrete =>
                executeFields schema store concrete (some node) itemPath selections
            let (values, errors) ← forNodes complete 0 nodes
            return (.array values, errors)
          | expected, got => refuseAt path (.shapeMismatch name expected got)

def executeFields (schema : Schema) (store : Store σ) (typeName : String)
    (source : Option NodeRef) (path : ResponsePath) :
    List Selection → StateM σ (Outcome (List (String × Json)))
  | [] => succeed []
  | s :: rest => do
    let (value, errors) ← executeField schema store typeName source path s
    let (values, others) ← executeFields schema store typeName source path rest
    return ((s.responseKey, value) :: values, errors ++ others)

end

def execute (schema : Schema) (store : Store σ) (selections : List Selection) :
    StateM σ Response := do
  let (fields, errors) ← executeFields schema store Schema.queryType none [] selections
  return ⟨.object (Json.overlay [] fields), errors⟩

end FieldGraph
