import FieldGraph.Proofs.Graph.Basic
import Mathlib.Data.List.Sort

/-!
# Graphs with adjacency indexes

A graph in tables, with the edges of each node in two indexes beside them: those that leave the
node, and those that arrive at it. A look-up in the indexes finds the edges that a search through
all edges finds, whatever nodes and edges have been added, and whatever edges have been refused.
-/
namespace FieldGraph

open Std (TreeMap TreeSet)

structure IndexedGraph where
  nextNode : Nat
  nextEdge : Nat
  nodes : TreeMap Nat Node
  edges : TreeMap Nat Edge
  leaving : TreeMap Nat (TreeSet Nat)
  arriving : TreeMap Nat (TreeSet Nat)

/-- Work on an indexed graph; what was done to the graph before a failure remains. -/
abbrev IndexedM := ExceptT MissingNode (StateM IndexedGraph)

namespace IndexedGraph

def empty : IndexedGraph := ⟨0, 0, ∅, ∅, ∅, ∅⟩

def getNode (id : Nat) : IndexedM Node := do
  match (← get).nodes[id]? with
  | some node => return node
  | none => throw ⟨id⟩

def nextNodeId : IndexedM Nat := do
  let g ← get
  set { g with nextNode := g.nextNode + 1 }
  return g.nextNode

def nextEdgeId : IndexedM Nat := do
  let g ← get
  set { g with nextEdge := g.nextEdge + 1 }
  return g.nextEdge

def enter (index : TreeMap Nat (TreeSet Nat)) (node edge : Nat) : TreeMap Nat (TreeSet Nat) :=
  index.insert node ((index.getD node ∅).insert edge)

def addNode (label : Option String) (properties : PropertyMap) : IndexedM Nat := do
  let id ← nextNodeId
  modify fun g => { g with nodes := g.nodes.insert id ⟨id, label, properties⟩ }
  return id

def addEdge (source target : Nat) (edgeType : String) : IndexedM Nat := do
  let _ ← getNode source
  let _ ← getNode target
  let id ← nextEdgeId
  modify fun g => { g with leaving := enter g.leaving source id }
  modify fun g => { g with arriving := enter g.arriving target id }
  modify fun g => { g with edges := g.edges.insert id ⟨id, source, target, edgeType⟩ }
  return id

def incident (g : IndexedGraph) (id : Nat) : Direction → TreeSet Nat
  | .outgoing => g.leaving.getD id ∅
  | .incoming => g.arriving.getD id ∅
  | .both => g.leaving.getD id ∅ ∪ g.arriving.getD id ∅

def neighbors (g : IndexedGraph) (id : Nat) (direction : Direction) (edgeType : Option String) :
    List (Nat × Nat) :=
  let found := (g.incident id direction).toList.filterMap (g.edges[·]?)
  (found.filter fun e => edgeType.all (e.edgeType == ·)).map fun e => (e.id, e.otherEnd id)

end IndexedGraph

inductive Addition where
  | node (label : Option String) (properties : PropertyMap)
  | edge (source target : Nat) (edgeType : String)

namespace Addition

def toIndexed : Addition → IndexedM Nat
  | .node label properties => IndexedGraph.addNode label properties
  | .edge source target edgeType => IndexedGraph.addEdge source target edgeType

def toGraph : Addition → StateM Graph (Except MissingNode Nat)
  | .node label properties => fun g => (.ok g.nodeCount, g.addNode label properties)
  | .edge source target edgeType => fun g =>
    match g.addEdge source target edgeType with
    | .ok next => (.ok g.edgeCount, next)
    | .error missing => (.error missing, g)

/-- Makes all additions, also those after one that fails. -/
def makeAll {σ : Type} (make : Addition → StateM σ (Except MissingNode Nat)) :
    List Addition → StateM σ (List (Except MissingNode Nat))
  | [] => return []
  | a :: rest => do
    let answer ← make a
    let answers ← makeAll make rest
    return answer :: answers

end Addition

namespace IndexedGraph

variable {ix : IndexedGraph} {g : Graph} {source target : Nat} {edgeType : String}

theorem addNode_eq (ix : IndexedGraph) (label : Option String) (properties : PropertyMap) :
    addNode label properties ix = (.ok ix.nextNode, { ix with
      nextNode := ix.nextNode + 1
      nodes := ix.nodes.insert ix.nextNode ⟨ix.nextNode, label, properties⟩ }) :=
  rfl

theorem getNode_bind {α : Type} (f : Node → IndexedM α) (ix : IndexedGraph) (id : Nat) :
    (getNode id >>= f) ix = match ix.nodes[id]? with
      | some node => f node ix
      | none => (.error ⟨id⟩, ix) := by
  show ((do
    match ix.nodes[id]? with
    | some node => return node
    | none => throw ⟨id⟩ : IndexedM Node) >>= f) ix = _
  cases ix.nodes[id]? with
  | some node => rfl
  | none => rfl

theorem addEdge_ok {s t : Node} (hsource : ix.nodes[source]? = some s)
    (htarget : ix.nodes[target]? = some t) (edgeType : String) :
    addEdge source target edgeType ix = (.ok ix.nextEdge, { ix with
      nextEdge := ix.nextEdge + 1
      leaving := enter ix.leaving source ix.nextEdge
      arriving := enter ix.arriving target ix.nextEdge
      edges := ix.edges.insert ix.nextEdge ⟨ix.nextEdge, source, target, edgeType⟩ }) := by
  rw [addEdge, getNode_bind, hsource]
  dsimp only
  rw [getNode_bind, htarget]
  rfl

theorem addEdge_of_missing_source (hsource : ix.nodes[source]? = none) (target : Nat)
    (edgeType : String) : addEdge source target edgeType ix = (.error ⟨source⟩, ix) := by
  rw [addEdge, getNode_bind, hsource]

theorem addEdge_of_missing_target {s : Node} (hsource : ix.nodes[source]? = some s)
    (htarget : ix.nodes[target]? = none) (edgeType : String) :
    addEdge source target edgeType ix = (.error ⟨target⟩, ix) := by
  rw [addEdge, getNode_bind, hsource]
  dsimp only
  rw [getNode_bind, htarget]

/-- An edge takes the next number, or it is refused and nothing is done. -/
theorem addEdge_cases (ix : IndexedGraph) (source target : Nat) (edgeType : String) :
    (addEdge source target edgeType ix).1 = .ok ix.nextEdge ∨
      (∃ missing, addEdge source target edgeType ix = (.error missing, ix)) := by
  cases hsource : ix.nodes[source]? with
  | none => exact .inr ⟨_, addEdge_of_missing_source hsource target edgeType⟩
  | some s =>
    cases htarget : ix.nodes[target]? with
    | none => exact .inr ⟨_, addEdge_of_missing_target hsource htarget edgeType⟩
    | some t => exact .inl (congrArg Prod.fst (addEdge_ok hsource htarget edgeType))

theorem mem_enter {index : TreeMap Nat (TreeSet Nat)} {node edge other id : Nat} :
    id ∈ (enter index node edge).getD other ∅ ↔
      (node = other ∧ edge = id) ∨ id ∈ index.getD other ∅ := by
  rw [enter, TreeMap.getD_insert]
  by_cases hnode : node = other
  · simp [hnode, TreeSet.mem_insert]
  · simp [hnode]

/-- The tables hold the nodes and edges of the graph, and the indexes enter each edge under its
ends. -/
structure Represents (ix : IndexedGraph) (g : Graph) : Prop where
  nextNode : ix.nextNode = g.nodeCount
  nextEdge : ix.nextEdge = g.edgeCount
  nodes : ∀ id : Nat, ix.nodes[id]? = g.node? id
  edges : ∀ id : Nat, ix.edges[id]? = g.edges[id]?
  leaving : ∀ node id, id ∈ ix.leaving.getD node ∅ ↔ ∃ e ∈ g.edges, e.source = node ∧ e.id = id
  arriving : ∀ node id, id ∈ ix.arriving.getD node ∅ ↔ ∃ e ∈ g.edges, e.target = node ∧ e.id = id

theorem represents_empty : empty.Represents .empty := by
  constructor
  · rfl
  · rfl
  · intro id
    rw [empty, TreeMap.getElem?_emptyc]
    rfl
  · intro id
    rw [empty, TreeMap.getElem?_emptyc]
    rfl
  · simp [empty, Graph.empty]
  · simp [empty, Graph.empty]

theorem getElem?_insert_next {α : Type} {table : TreeMap Nat α} {items : Array α}
    (h : ∀ id : Nat, table[id]? = items[id]?) (item : α) (id : Nat) :
    (table.insert items.size item)[id]? = (items.push item)[id]? := by
  rw [TreeMap.getElem?_insert, Array.getElem?_push, h]
  by_cases hid : items.size = id
  · simp [hid]
  · simp [hid, Ne.symm hid]

theorem Represents.addNode (h : ix.Represents g) (label : Option String)
    (properties : PropertyMap) :
    (IndexedGraph.addNode label properties ix).2.Represents (g.addNode label properties) := by
  rw [addNode_eq]
  refine ⟨?_, h.nextEdge, ?_, h.edges, h.leaving, h.arriving⟩
  · rw [h.nextNode]
    simp [Graph.nodeCount, Graph.addNode]
  · intro id
    rw [h.nextNode]
    exact getElem?_insert_next h.nodes _ id

theorem Represents.linkNodes (h : ix.Represents g) (edgeType : String)
    (hends : source < g.nodes.size ∧ target < g.nodes.size) :
    Represents { ix with
      nextEdge := ix.nextEdge + 1
      leaving := enter ix.leaving source ix.nextEdge
      arriving := enter ix.arriving target ix.nextEdge
      edges := ix.edges.insert ix.nextEdge ⟨ix.nextEdge, source, target, edgeType⟩ }
      (g.linkNodes source target edgeType hends) := by
  rw [h.nextEdge]
  refine ⟨h.nextNode, ?_, h.nodes, getElem?_insert_next h.edges _, ?_, ?_⟩
  · simp [Graph.edgeCount, Graph.linkNodes]
  · intro node id
    rw [mem_enter, h.leaving]
    simp only [Graph.linkNodes, Array.mem_push, or_and_right, exists_or, exists_eq_left]
    exact or_comm
  · intro node id
    rw [mem_enter, h.arriving]
    simp only [Graph.linkNodes, Array.mem_push, or_and_right, exists_or, exists_eq_left]
    exact or_comm

theorem Represents.toIndexed (h : ix.Represents g) (a : Addition) :
    (a.toIndexed ix).1 = (a.toGraph g).1 ∧ (a.toIndexed ix).2.Represents (a.toGraph g).2 := by
  cases a with
  | node label properties =>
    refine ⟨?_, h.addNode label properties⟩
    rw [Addition.toIndexed, addNode_eq, h.nextNode]
    rfl
  | edge source target edgeType =>
    simp only [Addition.toIndexed, Addition.toGraph, Graph.addEdge]
    by_cases hsource : source < g.nodes.size
    · obtain ⟨s, hs⟩ := Graph.exists_node? hsource
      by_cases htarget : target < g.nodes.size
      · obtain ⟨t, ht⟩ := Graph.exists_node? htarget
        rw [addEdge_ok ((h.nodes _).trans hs) ((h.nodes _).trans ht), dif_pos hsource,
          dif_pos htarget]
        exact ⟨congrArg _ h.nextEdge, h.linkNodes edgeType ⟨hsource, htarget⟩⟩
      · have hmissing : g.node? target = none := Array.getElem?_eq_none (Nat.not_lt.mp htarget)
        rw [addEdge_of_missing_target ((h.nodes _).trans hs) ((h.nodes _).trans hmissing),
          dif_pos hsource, dif_neg htarget]
        exact ⟨rfl, h⟩
    · have hmissing : g.node? source = none := Array.getElem?_eq_none (Nat.not_lt.mp hsource)
      rw [addEdge_of_missing_source ((h.nodes _).trans hmissing), dif_neg hsource]
      exact ⟨rfl, h⟩

/-- Both graphs answer all additions alike. -/
theorem Represents.makeAll (h : ix.Represents g) (additions : List Addition) :
    (Addition.makeAll Addition.toIndexed additions ix).1 =
        (Addition.makeAll Addition.toGraph additions g).1 ∧
      (Addition.makeAll Addition.toIndexed additions ix).2.Represents
        (Addition.makeAll Addition.toGraph additions g).2 := by
  induction additions generalizing ix g with
  | nil => exact ⟨rfl, h⟩
  | cons a additions ih =>
    obtain ⟨hanswer, hnext⟩ := h.toIndexed a
    obtain ⟨hanswers, hlast⟩ := ih hnext
    exact ⟨congrArg₂ List.cons hanswer hanswers, hlast⟩

theorem Represents.mem_incident (h : ix.Represents g) {node id : Nat} {direction : Direction} :
    id ∈ ix.incident node direction ↔
      ∃ e ∈ g.edges, e.leaves node direction = true ∧ e.id = id := by
  cases direction with
  | outgoing => simpa [incident, Edge.leaves] using h.leaving node id
  | incoming => simpa [incident, Edge.leaves] using h.arriving node id
  | both =>
    rw [incident, TreeSet.mem_union_iff, h.leaving, h.arriving, ← exists_or]
    simp only [Edge.leaves, Bool.or_eq_true, beq_iff_eq, or_and_right, and_or_left]

theorem ascending_toList (ids : TreeSet Nat) : ids.toList.Pairwise (· < ·) :=
  TreeSet.ordered_toList.imp Nat.compare_eq_lt.mp

/-- The edges that are found in the indexes are those that a search through all edges finds. -/
theorem Represents.found (h : ix.Represents g) (node : Nat) (direction : Direction) :
    (ix.incident node direction).toList.filterMap (ix.edges[·]?) =
      g.edges.toList.filter fun e => e.leaves node direction := by
  have hids : (ix.incident node direction).toList =
      (g.edges.toList.filter fun e => e.leaves node direction).map Edge.id := by
    refine (ascending_toList _).eq_of_mem_iff ?_ fun id => ?_
    · exact List.pairwise_map.mpr (g.edges_ascending.sublist List.filter_sublist)
    · rw [TreeSet.mem_toList, h.mem_incident]
      simp [List.mem_map, List.mem_filter, and_assoc]
  have hedge : ∀ e ∈ g.edges.toList.filter fun e => e.leaves node direction,
      ix.edges[e.id]? = some e := by
    intro e he
    have hmem := (List.mem_filter.mp he).1
    rw [h.edges]
    exact Graph.mem_edges_iff.mp hmem
  rw [hids, List.filterMap_map]
  exact (List.filterMap_congr hedge).trans List.filterMap_some

theorem Represents.neighbors (h : ix.Represents g) (node : Nat) (direction : Direction)
    (edgeType : Option String) :
    ix.neighbors node direction edgeType = g.neighbors node direction edgeType := by
  rw [IndexedGraph.neighbors, Graph.neighbors, h.found, List.filter_filter]
  simp only [Bool.and_comm]

theorem keys_of_numbered {α : Type} {table : TreeMap Nat α} {items : Array α}
    (h : ∀ id : Nat, table[id]? = items[id]?) :
    table.keys = List.range items.size ∧ table.size = items.size := by
  have hkeys : table.keys = List.range items.size := by
    refine List.Pairwise.eq_of_mem_iff (r := (· < ·)) ?_ List.pairwise_lt_range fun id => ?_
    · exact TreeMap.ordered_keys.imp Nat.compare_eq_lt.mp
    · rw [TreeMap.mem_keys, TreeMap.mem_iff_isSome_getElem?, h, List.mem_range]
      simp
  refine ⟨hkeys, ?_⟩
  rw [← TreeMap.length_keys, hkeys, List.length_range]

end IndexedGraph

open IndexedGraph in
/-- After any additions, refused ones among them, the indexes find for a node exactly the edges of
the table that lead from it in the direction, each once, in ascending order and with the node at
the other end. All ends are in the table of nodes, the numbers go up from zero without a gap, and an
edge that is refused changes nothing. A graph without indexes answers the same. -/
theorem indexed_graph_agrees (additions : List Addition) :
    ∃ answers ix g, Addition.makeAll Addition.toIndexed additions .empty = (answers, ix) ∧
      Addition.makeAll Addition.toGraph additions .empty = (answers, g) ∧
      (∀ v direction edgeType,
        (∀ id w, (id, w) ∈ ix.neighbors v direction edgeType ↔
          ∃ e, ix.edges[id]? = some e ∧ e.Leads v w direction ∧ ∀ t ∈ edgeType, e.edgeType = t) ∧
        (ix.neighbors v direction edgeType).Pairwise (fun a b => a.1 < b.1) ∧
        ix.neighbors v direction edgeType = g.neighbors v direction edgeType) ∧
      (∀ (id : Nat) e, ix.edges[id]? = some e →
        e.id = id ∧ e.source ∈ ix.nodes ∧ e.target ∈ ix.nodes) ∧
      ix.nodes.keys = List.range ix.nodes.size ∧ ix.edges.keys = List.range ix.edges.size ∧
      (∀ label properties, (addNode label properties ix).1 = .ok ix.nodes.size) ∧
      ∀ source target edgeType next,
        (∀ id, addEdge source target edgeType ix = (.ok id, next) → id = ix.edges.size) ∧
        ∀ missing, addEdge source target edgeType ix = (.error missing, next) → next = ix := by
  obtain ⟨hanswers, hrep⟩ := represents_empty.makeAll additions
  generalize Addition.makeAll Addition.toIndexed additions .empty = indexed at hanswers hrep
  generalize Addition.makeAll Addition.toGraph additions .empty = plain at hanswers hrep
  obtain ⟨answers, ix⟩ := indexed
  obtain ⟨_, g⟩ := plain
  dsimp only at hanswers hrep
  subst hanswers
  obtain ⟨hnodes, hnodeCount⟩ := keys_of_numbered hrep.nodes
  obtain ⟨hedges, hedgeCount⟩ := keys_of_numbered hrep.edges
  have hpresent : ∀ {id : Nat}, id < g.nodes.size → id ∈ ix.nodes := by
    intro id hid
    rw [TreeMap.mem_iff_isSome_getElem?, hrep.nodes]
    obtain ⟨n, hn⟩ := Graph.exists_node? hid
    rw [hn]
    rfl
  refine ⟨answers, ix, g, rfl, rfl, fun v direction edgeType => ⟨fun id w => ?_, ?_, ?_⟩, ?_, ?_,
    ?_, ?_, ?_⟩
  · rw [hrep.neighbors, Graph.mem_neighbors]
    simp only [hrep.edges, Edge.leads_iff]
    constructor
    · rintro ⟨e, he, hleaves, htype, heq⟩
      obtain ⟨rfl, rfl⟩ := Prod.mk.inj heq
      refine ⟨e, Graph.mem_edges_iff.mp (Array.mem_toList_iff.mpr he), ⟨hleaves, rfl⟩, ?_⟩
      simpa [Option.all_eq_true] using htype
    · rintro ⟨e, he, ⟨hleaves, rfl⟩, htype⟩
      obtain ⟨hlt, hget⟩ := Array.getElem?_eq_some_iff.mp he
      have hid : e.id = id := hget ▸ g.edge_ids id hlt
      refine ⟨e, Array.mem_of_getElem? he, hleaves, ?_, by rw [hid]⟩
      simpa [Option.all_eq_true] using htype
  · rw [hrep.neighbors]
    exact g.neighbors_ascending v direction edgeType
  · exact hrep.neighbors v direction edgeType
  · intro id e he
    rw [hrep.edges] at he
    obtain ⟨hlt, hget⟩ := Array.getElem?_eq_some_iff.mp he
    obtain ⟨hsource, htarget⟩ := g.endpoints e (Array.mem_of_getElem? he)
    exact ⟨hget ▸ g.edge_ids id hlt, hpresent hsource, hpresent htarget⟩
  · rw [hnodes, hnodeCount]
  · rw [hedges, hedgeCount]
  · intro label properties
    rw [addNode_eq, hrep.nextNode, hnodeCount]
    rfl
  · intro source target edgeType next
    rcases addEdge_cases ix source target edgeType with hadded | ⟨missing, hrefused⟩
    · refine ⟨fun id hid => ?_, fun missing hmissing => ?_⟩
      · rw [hid] at hadded
        rw [hedgeCount, Except.ok.inj hadded, hrep.nextEdge]
        rfl
      · rw [hmissing] at hadded
        cases hadded
    · rw [hrefused]
      refine ⟨fun id hid => ?_, fun missing hmissing => ?_⟩
      · cases hid
      · exact (Prod.mk.inj hmissing).2.symm

def loopAdditions : List Addition :=
  [.node (some "Post") .empty, .edge 0 0 "a", .edge 0 1 "a", .node none .empty, .edge 0 1 "a",
    .edge 1 0 "b"]

theorem loop_indexed_once :
    ∃ ix, (Addition.makeAll Addition.toIndexed loopAdditions .empty).2 = ix ∧
      ix.neighbors 0 .both none = [(0, 0), (1, 1), (2, 1)] ∧
      ix.neighbors 0 .outgoing (some "a") = [(0, 0), (1, 1)] := by
  obtain ⟨answers, ix, g, hix, hg, hneighbors, _⟩ := indexed_graph_agrees loopAdditions
  have hgraph : g = (Addition.makeAll Addition.toGraph loopAdditions .empty).2 := by rw [hg]
  refine ⟨ix, by rw [hix], ?_, ?_⟩
  · rw [(hneighbors 0 .both none).2.2, hgraph]
    decide
  · rw [(hneighbors 0 .outgoing (some "a")).2.2, hgraph]
    decide

end FieldGraph
