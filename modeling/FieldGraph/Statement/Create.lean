import FieldGraph.Statement.Match

/-!
# Creating patterns

What a merge does with a row in which its pattern does not occur: it adds the nodes and the edge
that the pattern describes, and keeps the nodes that are bound already.
-/
namespace FieldGraph

structure Counters where
  nodesCreated : Nat
  propertiesSet : Nat
  relationshipsCreated : Nat
  deriving DecidableEq, Repr

namespace Counters

def zero : Counters := ⟨0, 0, 0⟩

def add (a b : Counters) : Counters :=
  ⟨a.nodesCreated + b.nodesCreated, a.propertiesSet + b.propertiesSet,
    a.relationshipsCreated + b.relationshipsCreated⟩

def lines (c : Counters) : List String :=
  ([("Nodes created", c.nodesCreated), ("Properties set", c.propertiesSet),
    ("Relationships created", c.relationshipsCreated)].filter (0 < ·.2)).map
      fun (name, count) => name ++ ": " ++ natText count

end Counters

structure Draft where
  graph : Graph
  counters : Counters

namespace Draft

def addNode (d : Draft) (label : Option String) (properties : PropertyMap) : Draft :=
  ⟨d.graph.addNode label properties,
    d.counters.add ⟨1, properties.size, 0⟩⟩

def addEdge (d : Draft) (source target : Nat) (edgeType : String) : Evaluation Draft :=
  match d.graph.addEdge source target edgeType with
  | .ok graph => .ok ⟨graph, d.counters.add ⟨0, 0, 1⟩⟩
  | .error missing => .error (.missingNode missing)

end Draft

/-- The node that stands for a pattern: the one it is bound to, or a new one. -/
def NodePattern.create (p : NodePattern) (d : Draft) (row : Row) :
    Evaluation (Draft × Row × Nat) := do
  match ← p.boundNode row with
  | some id =>
    if p.isUnconstrained then return (d, row, id)
    else .fault (.alreadyBound (p.name.getD ""))
  | none =>
    let id := d.graph.nodeCount
    return (d.addNode p.label p.propertyMap, row.bind p.name (.node id), id)

/-- Adds what the pattern describes and extends the row with it. A relationship without a
direction goes from the first node to the second. -/
def Pattern.create (p : Pattern) (d : Draft) (row : Row) : Evaluation (Draft × Row) := do
  let (d, row, start) ← p.start.create d row
  match p.hop with
  | none => return (d, row)
  | some (r, stop) =>
    match r.edgeType with
    | none => .fault .mergeNeedsType
    | some edgeType =>
      let (d, row, stop) ← stop.create d row
      let edge := d.graph.edgeCount
      let d ← match r.direction with
        | .incoming => d.addEdge stop start edgeType
        | .outgoing => d.addEdge start stop edgeType
        | .both => d.addEdge start stop edgeType
      return (d, row.bind r.name (.edge edge))

end FieldGraph
