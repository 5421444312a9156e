import FieldGraph.Document.Batch
import FieldGraph.Document.Naming
import FieldGraph.Error
import FieldGraph.Statement.Token
import FieldGraph.Value.Json

/-!
# Compiling documents

Every object of a document is a node. Its scalar fields are properties, and a field that holds an
object, or objects within arrays, links the nodes of these objects to it. Objects are numbered
depth first, before the objects in their fields. An object without properties has a number but no
statements.
-/
namespace FieldGraph

def defaultLabel : String := "Post"

def checkedName (name : String) (role : NameRole) : Except DocumentFault String :=
  if isPlainIdentifier name then .ok name else .error (.badName name role)

/-- The properties of an object: its scalar fields in order, without those that are null. -/
def propertiesOf : List (String × Json) → Except DocumentFault (List (String × Value))
  | [] => .ok []
  | (key, value) :: rest =>
    match value with
    | .null => propertiesOf rest
    | value =>
      match Value.ofScalar? value with
      | none => propertiesOf rest
      | some value => do
        let key ← checkedName key .propertyKey
        let properties ← propertiesOf rest
        return (key, value) :: properties

def labelOf (rootLabel : String) : Option String → String
  | some relation => toLabel relation
  | none => rootLabel

/-- The statements for an object with properties: its node, and its edge to the parent if it has
both a parent and a field that introduced it. -/
def pushObject (rootLabel : String) (parent : Option Nat) (relation : Option String) (id : Nat)
    (properties : List (String × Value)) (b : Batch) : Except DocumentFault Batch := do
  if properties.isEmpty then return b
  let label ← checkedName (labelOf rootLabel relation) .label
  let b := b.push (.mergeNode id label properties)
  match parent, relation with
  | some parent, some relation =>
    let edgeType ← checkedName (toEdgeType relation) .relationshipType
    return b.push (.mergeEdge id edgeType parent)
  | _, _ => return b

mutual

/-- Adds the statements for a part of a document to a batch. The part was introduced by the field
`relation` of the object numbered `parent`, if these are given. -/
def compileInto (rootLabel : String) (parent : Option Nat) (relation : Option String) :
    Json → Batch → Except DocumentFault Batch
  | .object fields, b => do
    let id := b.nextId
    let properties ← propertiesOf fields
    let b ← pushObject rootLabel parent relation id properties b.allocate
    compileFields rootLabel id fields b
  | .array items, b => compileItems rootLabel parent relation items b
  | _, b => .ok b

/-- Adds the statements for the items of an array, as if each were in its place. -/
def compileItems (rootLabel : String) (parent : Option Nat) (relation : Option String) :
    List Json → Batch → Except DocumentFault Batch
  | [], b => .ok b
  | item :: rest, b => do
    let b ← compileInto rootLabel parent relation item b
    compileItems rootLabel parent relation rest b

def compileFields (rootLabel : String) (id : Nat) :
    List (String × Json) → Batch → Except DocumentFault Batch
  | [], b => .ok b
  | (key, value) :: rest, b => do
    let b ← compileInto rootLabel (some id) (some key) value b
    compileFields rootLabel id rest b

end

def compile (rootLabel : String) (document : Json) : Except DocumentFault Batch :=
  match document with
  | .object _ => compileInto rootLabel none none document .empty
  | .array _ => compileInto rootLabel none none document .empty
  | other => .error (.scalarRoot other.kind)

end FieldGraph
