import FieldGraph.Graph.Direction
import FieldGraph.PropertyMap

/-!
# Property graphs

Nodes with an optional label and properties, and typed edges between them. Nodes and edges are
numbered in the order in which they are added, and nothing is ever removed, so an edge always has
both its ends.
-/
namespace FieldGraph

structure Node where
  id : Nat
  label : Option String
  properties : PropertyMap

structure Edge where
  id : Nat
  source : Nat
  target : Nat
  edgeType : String
  deriving DecidableEq, Repr

def Node.hasLabel (n : Node) (label : String) : Bool := n.label == some label

def Node.setProperty (n : Node) (key : String) (value : Value) : Node :=
  { n with properties := n.properties.insert key value }

def Edge.leaves (e : Edge) (id : Nat) : Direction → Bool
  | .outgoing => e.source == id
  | .incoming => e.target == id
  | .both => e.source == id || e.target == id

/-- The end of the edge that is not `id`; a loop has the same node at both ends. -/
def Edge.otherEnd (e : Edge) (id : Nat) : Nat := if e.source = id then e.target else e.source

structure Graph where
  nodes : Array Node
  edges : Array Edge
  node_ids : ∀ i (h : i < nodes.size), nodes[i].id = i
  edge_ids : ∀ i (h : i < edges.size), edges[i].id = i
  endpoints : ∀ e ∈ edges, e.source < nodes.size ∧ e.target < nodes.size

structure MissingNode where
  id : Nat
  deriving DecidableEq, Repr

namespace Graph

def empty : Graph := ⟨#[], #[], by simp, by simp, by simp⟩

instance : Inhabited Graph := ⟨empty⟩

def nodeCount (g : Graph) : Nat := g.nodes.size

def edgeCount (g : Graph) : Nat := g.edges.size

def node? (g : Graph) (id : Nat) : Option Node := g.nodes[id]?

def getNode (g : Graph) (id : Nat) : Except MissingNode Node :=
  match g.node? id with
  | some node => .ok node
  | none => .error ⟨id⟩

def addNode (g : Graph) (label : Option String) (properties : PropertyMap) : Graph where
  nodes := g.nodes.push ⟨g.nodes.size, label, properties⟩
  edges := g.edges
  node_ids i h := by
    rw [Array.getElem_push]
    split
    · exact g.node_ids i _
    · simp only [Array.size_push] at h
      show g.nodes.size = i
      omega
  edge_ids := g.edge_ids
  endpoints e he := by
    have := g.endpoints e he
    simp only [Array.size_push]
    omega

def linkNodes (g : Graph) (source target : Nat) (edgeType : String)
    (h : source < g.nodes.size ∧ target < g.nodes.size) : Graph where
  nodes := g.nodes
  edges := g.edges.push ⟨g.edges.size, source, target, edgeType⟩
  node_ids := g.node_ids
  edge_ids i hi := by
    rw [Array.getElem_push]
    split
    · exact g.edge_ids i _
    · simp only [Array.size_push] at hi
      show g.edges.size = i
      omega
  endpoints e he := by
    rcases Array.mem_push.1 he with he | rfl
    · exact g.endpoints e he
    · exact h

/-- Adds an edge; its number is the number of edges before. The source is looked up first. -/
def addEdge (g : Graph) (source target : Nat) (edgeType : String) : Except MissingNode Graph :=
  if hs : source < g.nodes.size then
    if ht : target < g.nodes.size then .ok (g.linkNodes source target edgeType ⟨hs, ht⟩)
    else .error ⟨target⟩
  else .error ⟨source⟩

/-- The edges that leave a node in a direction, in the order of their numbers, each with the node
at its other end; an edge type restricts them to that type. -/
def neighbors (g : Graph) (id : Nat) (direction : Direction) (edgeType : Option String) :
    List (Nat × Nat) :=
  (g.edges.toList.filter fun e => e.leaves id direction && edgeType.all (e.edgeType == ·)).map
    fun e => (e.id, e.otherEnd id)

def findNodes (g : Graph) (label : Option String) (properties : PropertyMap) : List Nat :=
  (g.nodes.toList.filter fun n => label.all n.hasLabel && n.properties.includes properties).map
    Node.id

end Graph

end FieldGraph
