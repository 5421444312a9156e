import FieldGraph.Statement.Query
import FieldGraph.Statement.Row

/-!
# Matching patterns

A row is extended in every way in which the pattern occurs in the graph: start nodes in the order
of their numbers, and for each the edges in the order of theirs. A variable that is bound to a
node stands for that node.
-/
namespace FieldGraph

def NodePattern.propertyMap (n : NodePattern) : PropertyMap := .ofList n.properties

def NodePattern.boundNode (n : NodePattern) (row : Row) : Evaluation (Option Nat) :=
  match n.name with
  | none => .ok none
  | some name =>
    match row.get? name with
    | none => .ok none
    | some (.node id) => .ok (some id)
    | some (.edge _) => .fault (.relationshipAsNode name)

def NodePattern.admits (p : NodePattern) (n : Node) : Bool :=
  p.label.all n.hasLabel && n.properties.includes p.propertyMap

def NodePattern.fits (p : NodePattern) (g : Graph) (row : Row) (id : Nat) : Evaluation Bool := do
  match ← p.boundNode row with
  | some bound => return bound == id && (g.node? id).any p.admits
  | none => return (g.node? id).any p.admits

def NodePattern.candidates (p : NodePattern) (g : Graph) (row : Row) : Evaluation (List Nat) := do
  match ← p.boundNode row with
  | some id => return if ← p.fits g row id then [id] else []
  | none => return g.findNodes p.label p.propertyMap

/-- Whether an edge can stand for a relationship in a row: a variable bound to an edge stands for
that edge. -/
def RelationshipPattern.allows (r : RelationshipPattern) (row : Row) (edge : Nat) : Bool :=
  match r.name.bind row.get? with
  | some (.edge bound) => bound == edge
  | _ => true

/-- The row that goes along one edge to one neighbour, if that fits the pattern. -/
def hopTo (g : Graph) (r : RelationshipPattern) (stop : NodePattern) (row : Row) :
    Nat × Nat → Evaluation (List Row)
  | (edge, neighbor) =>
    if r.allows row edge then do
      if ← stop.fits g row neighbor then
        return [(row.bind stop.name (.node neighbor)).bind r.name (.edge edge)]
      else return []
    else .ok []

def Pattern.matchFrom (p : Pattern) (g : Graph) (row : Row) (start : Nat) :
    Evaluation (List Row) :=
  let bound := row.bind p.start.name (.node start)
  match p.hop with
  | none => .ok [bound]
  | some (r, stop) => collect (hopTo g r stop bound) (g.neighbors start r.direction r.edgeType)

def Pattern.matches (p : Pattern) (g : Graph) (row : Row) : Evaluation (List Row) := do
  collect (p.matchFrom g row) (← p.start.candidates g row)

end FieldGraph
