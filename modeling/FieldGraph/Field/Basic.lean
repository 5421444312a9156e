import FieldGraph.Value.Text

/-!
# What a field yields

A field of a node is a value, another node or a list of nodes. Nodes are passed on as references,
which hold a number and never data.
-/
namespace FieldGraph

structure NodeRef where
  id : Nat
  typeName : Option String
  deriving DecidableEq, Repr

def NodeRef.inspect (r : NodeRef) : String :=
  Text.record "NodeRef" [("id", natText r.id), ("type_name", Text.quotedOption r.typeName)]

inductive FieldType where
  | scalar
  | object (typeName : String)
  | list (typeName : String)
  deriving DecidableEq, Repr

def FieldType.inspect : FieldType → String
  | .scalar => "Scalar"
  | .object name => Text.variant "Object" (Text.quoted name)
  | .list name => Text.variant "List" (Text.quoted name)

inductive Resolved where
  | scalar (value : Value)
  | reference (node : Option NodeRef)
  | references (nodes : List NodeRef)

def Resolved.inspect : Resolved → String
  | .scalar value => Text.variant "Scalar" value.inspect
  | .reference none => Text.variant "Reference" "None"
  | .reference (some node) => Text.variant "Reference" (Text.variant "Some" node.inspect)
  | .references nodes => Text.variant "References" (Text.listing (nodes.map NodeRef.inspect))

end FieldGraph
