import FieldGraph.Graph.Direction
import FieldGraph.Text.Record

/-!
# Resolvers

The ways in which a field is found in the graph.
-/
namespace FieldGraph

inductive Multiplicity where
  | single
  | many
  deriving DecidableEq, Repr

def Multiplicity.name : Multiplicity → String
  | .single => "Single"
  | .many => "Many"

inductive Resolver where
  /-- The number of the source node itself. -/
  | identity
  | property (field : String)
  /-- Nodes one edge away, restricted by edge type and label if these are given. -/
  | relation (multiplicity : Multiplicity) (edgeType : Option String) (direction : Direction)
      (targetLabel : Option String)
  /-- Nodes that match a search text. -/
  | search
  /-- Nodes with a label. -/
  | collection (label : String)
  deriving DecidableEq, Repr

namespace Resolver

def isEntryPoint : Resolver → Bool
  | .search => true
  | .collection _ => true
  | _ => false

def inspect : Resolver → String
  | .identity => "Identity"
  | .property field => Text.record "Property" [("field", Text.quoted field)]
  | .relation multiplicity edgeType direction targetLabel =>
    Text.record "Relation" [("multiplicity", multiplicity.name),
      ("relation", Text.quotedOption edgeType), ("direction", direction.name),
      ("target_label", Text.quotedOption targetLabel)]
  | .search => "SearchEntry"
  | .collection label => Text.record "CollectionEntry" [("label", Text.quoted label)]

end Resolver

end FieldGraph
