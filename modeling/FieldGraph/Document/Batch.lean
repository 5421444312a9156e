import FieldGraph.Value.Text

/-!
# Batches

The statements that build up a graph, in order, and the numbers by which they refer to each
other's nodes. These numbers belong to the batch; the store numbers its nodes on its own.
-/
namespace FieldGraph

inductive Mutation where
  /-- Makes sure that there is a node with the label and the properties. -/
  | mergeNode (id : Nat) (label : String) (properties : List (String × Value))
  /-- Makes sure that there is an edge from child to parent. -/
  | mergeEdge (child : Nat) (edgeType : String) (parent : Nat)
  /-- Text that is sent as it is. -/
  | raw (text : String)

namespace Mutation

def variableOf (id : Nat) : String := "n" ++ natText id

def propertyText (property : String × Value) : String := property.1 ++ ": " ++ property.2.literal

def text : Mutation → String
  | .mergeNode id label properties =>
    "MERGE (" ++ variableOf id ++ ":" ++ label ++ " \x7b" ++
      ", ".intercalate (properties.map propertyText) ++ "\x7d)\n"
  | .mergeEdge child edgeType parent =>
    "MERGE (" ++ variableOf child ++ ")-[:" ++ edgeType ++ "]->(" ++ variableOf parent ++ ")\n"
  | .raw text => text

def isEdge : Mutation → Bool
  | .mergeEdge _ _ _ => true
  | _ => false

end Mutation

structure Batch where
  /-- The number that the next node gets. -/
  nextId : Nat
  mutations : Array Mutation

namespace Batch

def empty : Batch := ⟨0, #[]⟩

instance : Inhabited Batch := ⟨empty⟩

def allocate (b : Batch) : Batch := { b with nextId := b.nextId + 1 }

def push (b : Batch) (m : Mutation) : Batch := { b with mutations := b.mutations.push m }

def size (b : Batch) : Nat := b.mutations.size

def isEmpty (b : Batch) : Bool := b.mutations.isEmpty

def render (b : Batch) : String := String.join (b.mutations.toList.map Mutation.text)

end Batch

end FieldGraph
