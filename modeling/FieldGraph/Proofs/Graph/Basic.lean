import FieldGraph.Proofs.Outcome
import FieldGraph.Statement.Run
import Mathlib.Algebra.GroupWithZero.Nat

/-!
# Nodes and growth of graphs

Nodes are found by their numbers. Nothing that a statement does takes away from a graph, and the
counters of a draft say how much was added to it.
-/
namespace FieldGraph

namespace Graph

/-- What is numbered by position is found under its number. -/
theorem mem_iff_of_index {α : Type} {items : Array α} {number : α → Nat}
    (h : ∀ i (hi : i < items.size), number items[i] = i) {a : α} :
    a ∈ items.toList ↔ items[number a]? = some a := by
  rw [← Array.getElem?_toList, List.mem_iff_getElem?]
  constructor
  · rintro ⟨i, hi⟩
    obtain ⟨hlt, hget⟩ := List.getElem?_eq_some_iff.mp hi
    have hid := h i (by simpa using hlt)
    rw [← Array.getElem_toList (by simpa using hlt), hget] at hid
    rw [hid, hi]
  · intro hfound
    exact ⟨number a, hfound⟩

theorem mem_nodes_iff {g : Graph} {n : Node} :
    n ∈ g.nodes.toList ↔ g.node? n.id = some n :=
  mem_iff_of_index g.node_ids

theorem mem_edges_iff {g : Graph} {e : Edge} :
    e ∈ g.edges.toList ↔ g.edges[e.id]? = some e :=
  mem_iff_of_index g.edge_ids

theorem id_of_node? {g : Graph} {id : Nat} {n : Node} (h : g.node? id = some n) : n.id = id := by
  rw [node?] at h
  obtain ⟨hlt, hget⟩ := Array.getElem?_eq_some_iff.mp h
  rw [← hget]
  exact g.node_ids id hlt

theorem node?_lt {g : Graph} {id : Nat} {n : Node} (h : g.node? id = some n) :
    id < g.nodeCount := by
  obtain ⟨hlt, _⟩ := Array.getElem?_eq_some_iff.mp h
  exact hlt

theorem exists_node? {g : Graph} {id : Nat} (h : id < g.nodeCount) : ∃ n, g.node? id = some n :=
  ⟨g.nodes[id], Array.getElem?_eq_getElem h⟩

theorem ascending_of_index {α : Type} {items : Array α} {number : α → Nat}
    (h : ∀ i (hi : i < items.size), number items[i] = i) :
    items.toList.Pairwise fun a b => number a < number b := by
  rw [List.pairwise_iff_getElem]
  intro i j hi hj hij
  rw [Array.getElem_toList, Array.getElem_toList, h i (by simpa using hi), h j (by simpa using hj)]
  exact hij

theorem ids_ascending (g : Graph) : g.nodes.toList.Pairwise fun a b => a.id < b.id :=
  ascending_of_index g.node_ids

theorem edges_ascending (g : Graph) : g.edges.toList.Pairwise fun a b => a.id < b.id :=
  ascending_of_index g.edge_ids

theorem mem_findNodes {g : Graph} {label : Option String} {properties : PropertyMap} {id : Nat} :
    id ∈ g.findNodes label properties ↔
      ∃ n, g.node? id = some n ∧ (label.all n.hasLabel && n.properties.includes properties) := by
  rw [findNodes, List.mem_map]
  constructor
  · rintro ⟨n, hn, rfl⟩
    obtain ⟨hmem, hadmits⟩ := List.mem_filter.mp hn
    exact ⟨n, mem_nodes_iff.mp hmem, hadmits⟩
  · rintro ⟨n, hn, hadmits⟩
    have hid := id_of_node? hn
    have hmem : n ∈ g.nodes.toList := mem_nodes_iff.mpr (by rw [hid, hn])
    exact ⟨n, List.mem_filter.mpr ⟨hmem, hadmits⟩, hid⟩

theorem findNodes_ascending (g : Graph) (label : Option String) (properties : PropertyMap) :
    (g.findNodes label properties).Pairwise (· < ·) := by
  rw [findNodes, List.pairwise_map]
  exact g.ids_ascending.sublist List.filter_sublist

theorem mem_neighbors {g : Graph} {id : Nat} {direction : Direction} {edgeType : Option String}
    {hop : Nat × Nat} :
    hop ∈ g.neighbors id direction edgeType ↔ ∃ e ∈ g.edges, e.leaves id direction = true ∧
      edgeType.all (e.edgeType == ·) = true ∧ hop = (e.id, e.otherEnd id) := by
  simp only [neighbors, List.mem_map, List.mem_filter, Bool.and_eq_true, Array.mem_toList_iff]
  constructor
  · rintro ⟨e, ⟨he, hleaves, htype⟩, rfl⟩
    exact ⟨e, he, hleaves, htype, rfl⟩
  · rintro ⟨e, he, hleaves, htype, rfl⟩
    exact ⟨e, ⟨he, hleaves, htype⟩, rfl⟩

theorem neighbors_ascending (g : Graph) (id : Nat) (direction : Direction)
    (edgeType : Option String) :
    (g.neighbors id direction edgeType).Pairwise fun a b => a.1 < b.1 := by
  rw [neighbors, List.pairwise_map]
  exact g.edges_ascending.sublist List.filter_sublist

/-- The first graph is the beginning of the second. -/
structure Extends (g h : Graph) : Prop where
  nodes : g.nodes.toList <+: h.nodes.toList
  edges : g.edges.toList <+: h.edges.toList

def size (g : Graph) : Nat := g.nodeCount + g.edgeCount

def propertyCount (g : Graph) : Nat := (g.nodes.toList.map fun n => n.properties.size).sum

theorem Extends.refl (g : Graph) : g.Extends g := ⟨List.prefix_refl _, List.prefix_refl _⟩

theorem Extends.trans {g h i : Graph} (hgh : g.Extends h) (hhi : h.Extends i) : g.Extends i :=
  ⟨hgh.nodes.trans hhi.nodes, hgh.edges.trans hhi.edges⟩

theorem Extends.nodeCount_le {g h : Graph} (hgh : g.Extends h) : g.nodeCount ≤ h.nodeCount := by
  simpa [nodeCount] using hgh.nodes.length_le

theorem Extends.edgeCount_le {g h : Graph} (hgh : g.Extends h) : g.edgeCount ≤ h.edgeCount := by
  simpa [edgeCount] using hgh.edges.length_le

theorem Extends.size_le {g h : Graph} (hgh : g.Extends h) : g.size ≤ h.size :=
  Nat.add_le_add hgh.nodeCount_le hgh.edgeCount_le

theorem Extends.node? {g h : Graph} (hgh : g.Extends h) {id : Nat} {n : Node}
    (hn : g.node? id = some n) : h.node? id = some n := by
  rw [Graph.node?, ← Array.getElem?_toList] at hn ⊢
  obtain ⟨more, hmore⟩ := hgh.nodes
  obtain ⟨hid, _⟩ := List.getElem?_eq_some_iff.mp hn
  rw [← hmore, List.getElem?_append_left hid, hn]

theorem Extends.mem_edges {g h : Graph} (hgh : g.Extends h) {e : Edge} (he : e ∈ g.edges) :
    e ∈ h.edges :=
  Array.mem_toList_iff.mp (hgh.edges.subset (Array.mem_toList_iff.mpr he))

theorem extends_addNode (g : Graph) (label : Option String) (properties : PropertyMap) :
    g.Extends (g.addNode label properties) :=
  ⟨by simp [addNode], List.prefix_refl _⟩

theorem node?_addNode (g : Graph) (label : Option String) (properties : PropertyMap) :
    (g.addNode label properties).node? g.nodeCount = some ⟨g.nodeCount, label, properties⟩ :=
  Array.getElem?_push_size

theorem extends_linkNodes (g : Graph) {source target : Nat} (edgeType : String)
    (h : source < g.nodes.size ∧ target < g.nodes.size) :
    g.Extends (g.linkNodes source target edgeType h) :=
  ⟨List.prefix_refl _, by simp [linkNodes]⟩

theorem addEdge_of_lt (g : Graph) {source target : Nat} (edgeType : String)
    (hsource : source < g.nodes.size) (htarget : target < g.nodes.size) :
    g.addEdge source target edgeType =
      .ok (g.linkNodes source target edgeType ⟨hsource, htarget⟩) := by
  rw [addEdge, dif_pos hsource, dif_pos htarget]

theorem addEdge_ok {g h : Graph} {source target : Nat} {edgeType : String}
    (hadd : g.addEdge source target edgeType = .ok h) :
    ∃ hends, h = g.linkNodes source target edgeType hends := by
  unfold addEdge at hadd
  split at hadd
  case isTrue hs =>
    split at hadd
    case isTrue ht => exact ⟨⟨hs, ht⟩, (Except.ok.inj hadd).symm⟩
    case isFalse => cases hadd
  case isFalse => cases hadd

end Graph

theorem Counters.zero_add (c : Counters) : zero.add c = c := by
  simp [add, zero]

/-- The second draft has grown out of the first, and its counters say by how much. -/
structure Draft.Grows (d e : Draft) : Prop where
  graph : d.graph.Extends e.graph
  nodes : e.counters.nodesCreated + d.graph.nodeCount =
    d.counters.nodesCreated + e.graph.nodeCount
  properties : e.counters.propertiesSet + d.graph.propertyCount =
    d.counters.propertiesSet + e.graph.propertyCount
  edges : e.counters.relationshipsCreated + d.graph.edgeCount =
    d.counters.relationshipsCreated + e.graph.edgeCount

namespace Draft

theorem Grows.refl (d : Draft) : d.Grows d := ⟨.refl _, rfl, rfl, rfl⟩

theorem Grows.trans {d e f : Draft} (hde : d.Grows e) (hef : e.Grows f) : d.Grows f := by
  refine ⟨hde.graph.trans hef.graph, ?_, ?_, ?_⟩
  · have := hde.nodes
    have := hef.nodes
    omega
  · have := hde.properties
    have := hef.properties
    omega
  · have := hde.edges
    have := hef.edges
    omega

theorem grows_addNode (d : Draft) (label : Option String) (properties : PropertyMap) :
    d.Grows (d.addNode label properties) := by
  refine ⟨d.graph.extends_addNode label properties, ?_, ?_, ?_⟩
  · simp [addNode, Counters.add, Graph.nodeCount, Graph.addNode]
    omega
  · simp [addNode, Counters.add, Graph.propertyCount, Graph.addNode]
    omega
  · simp [addNode, Counters.add, Graph.edgeCount, Graph.addNode]

theorem grows_addEdge {d e : Draft} {source target : Nat} {edgeType : String}
    (h : d.addEdge source target edgeType = .ok e) : d.Grows e := by
  unfold addEdge at h
  split at h
  case h_1 graph hadd =>
    cases h
    obtain ⟨hends, rfl⟩ := Graph.addEdge_ok hadd
    refine ⟨d.graph.extends_linkNodes edgeType hends, ?_, ?_, ?_⟩
    · simp [Counters.add, Graph.nodeCount, Graph.linkNodes]
    · simp [Counters.add, Graph.propertyCount, Graph.linkNodes]
    · simp [Counters.add, Graph.edgeCount, Graph.linkNodes]
      omega
  case h_2 => cases h

theorem addEdge_ok {d e : Draft} {source target : Nat} {edgeType : String}
    (h : d.addEdge source target edgeType = .ok e) : e.graph.nodes = d.graph.nodes ∧
      e.graph.edges = d.graph.edges.push ⟨d.graph.edgeCount, source, target, edgeType⟩ := by
  unfold addEdge at h
  split at h
  case h_1 graph hadd =>
    cases h
    obtain ⟨_, rfl⟩ := Graph.addEdge_ok hadd
    exact ⟨rfl, rfl⟩
  case h_2 => cases h

end Draft

/-- A traversal in the direction goes along the edge from the first node to the second. -/
def Edge.Leads (e : Edge) (source target : Nat) : Direction → Prop
  | .outgoing => e.source = source ∧ e.target = target
  | .incoming => e.target = source ∧ e.source = target
  | .both => (e.source = source ∧ e.target = target) ∨ (e.target = source ∧ e.source = target)

theorem Edge.leads_iff {e : Edge} {source target : Nat} {direction : Direction} :
    e.Leads source target direction ↔
      e.leaves source direction = true ∧ e.otherEnd source = target := by
  by_cases hsource : e.source = source
  · subst hsource
    cases direction with
    | outgoing => simp [Leads, leaves, otherEnd]
    | incoming =>
      simp only [Leads, leaves, otherEnd, beq_iff_eq, if_true]
      constructor
      · rintro ⟨htarget, rfl⟩
        exact ⟨htarget, htarget⟩
      · rintro ⟨htarget, rfl⟩
        exact ⟨htarget, htarget.symm⟩
    | both =>
      simp only [Leads, leaves, otherEnd, beq_self_eq_true, Bool.true_or, true_and, if_true]
      constructor
      · rintro (htarget | ⟨htarget, rfl⟩)
        · exact htarget
        · exact htarget
      · exact .inl
  · cases direction with
    | outgoing => simp [Leads, leaves, hsource]
    | incoming => simp [Leads, leaves, otherEnd, hsource]
    | both => simp [Leads, leaves, otherEnd, hsource]

section

variable {d e : Draft} {row row' : Row} {id : Nat}

/-- A pattern is created as the node that it is bound to, if it asks for nothing else, and as a new
node if its name is free. -/
theorem NodePattern.create_cases {p : NodePattern} (h : p.create d row = .ok (e, row', id)) :
    (p.boundNode row = .ok (some id) ∧ p.isUnconstrained = true ∧ e = d ∧ row' = row) ∨
      (p.boundNode row = .ok none ∧ id = d.graph.nodeCount ∧
        e = d.addNode p.label p.propertyMap ∧ row' = row.bind p.name (.node id)) := by
  obtain ⟨bound, hbound, h⟩ := bind_eq_ok.mp h
  cases bound with
  | none =>
    cases h
    exact .inr ⟨hbound, rfl, rfl, rfl⟩
  | some k =>
    dsimp only at h
    split at h
    case isTrue hfree =>
      cases h
      exact .inl ⟨hbound, hfree, rfl, rfl⟩
    case isFalse => cases h

theorem NodePattern.create_grows {p : NodePattern} (h : p.create d row = .ok (e, row', id)) :
    d.Grows e := by
  rcases create_cases h with ⟨_, _, rfl, _⟩ | ⟨_, _, rfl, _⟩
  · exact .refl _
  · exact d.grows_addNode p.label p.propertyMap

/-- The steps of creating a pattern. Whichever way the new edge goes, it leads from the node at the
start to the one where the pattern stops. -/
inductive Pattern.Created (d : Draft) (row : Row) : Pattern → Draft → Row → Prop
  | node {start : NodePattern} {d₁ : Draft} {row₁ : Row} {s : Nat}
      (hstart : start.create d row = .ok (d₁, row₁, s)) : Created d row ⟨start, none⟩ d₁ row₁
  | hop {start stop : NodePattern} {r : RelationshipPattern} {edgeType : String}
      {d₁ d₂ e : Draft} {row₁ row₂ : Row} {s t source target : Nat}
      (hstart : start.create d row = .ok (d₁, row₁, s))
      (hstop : stop.create d₁ row₁ = .ok (d₂, row₂, t)) (htype : r.edgeType = some edgeType)
      (hleads : Edge.Leads ⟨d₂.graph.edgeCount, source, target, edgeType⟩ s t r.direction)
      (hadd : d₂.addEdge source target edgeType = .ok e) :
      Created d row ⟨start, some (r, stop)⟩ e (row₂.bind r.name (.edge d₂.graph.edgeCount))

theorem Pattern.created {p : Pattern} (h : p.create d row = .ok (e, row')) :
    p.Created d row e row' := by
  obtain ⟨start, hop⟩ := p
  obtain ⟨⟨d₁, row₁, s⟩, hstart, h⟩ := bind_eq_ok.mp h
  cases hop with
  | none =>
    cases h
    exact .node hstart
  | some hop =>
    obtain ⟨r, stop⟩ := hop
    obtain ⟨name, edgeType, direction⟩ := r
    cases edgeType with
    | none => cases h
    | some edgeType =>
      obtain ⟨⟨d₂, row₂, t⟩, hstop, h⟩ := bind_eq_ok.mp h
      cases direction with
      | outgoing =>
        obtain ⟨d₃, hadd, h⟩ := bind_eq_ok.mp h
        cases h
        exact .hop hstart hstop rfl ⟨rfl, rfl⟩ hadd
      | incoming =>
        obtain ⟨d₃, hadd, h⟩ := bind_eq_ok.mp h
        cases h
        exact .hop hstart hstop rfl ⟨rfl, rfl⟩ hadd
      | both =>
        obtain ⟨d₃, hadd, h⟩ := bind_eq_ok.mp h
        cases h
        exact .hop hstart hstop rfl (.inl ⟨rfl, rfl⟩) hadd

theorem Pattern.create_grows {p : Pattern} (h : p.create d row = .ok (e, row')) : d.Grows e := by
  cases created h with
  | node hstart => exact NodePattern.create_grows hstart
  | hop hstart hstop _ _ hadd =>
    have hnodes := (NodePattern.create_grows hstart).trans (NodePattern.create_grows hstop)
    exact hnodes.trans (Draft.grows_addEdge hadd)

end

theorem mergeRow_grows {access : Access} {p : Pattern} {d e : Draft} {row : Row}
    {rows : List Row} (h : mergeRow access p d row = .ok (e, rows)) : d.Grows e := by
  obtain ⟨found, _, h⟩ := bind_eq_ok.mp h
  split at h
  case h_1 =>
    split at h
    case h_1 => cases h
    case h_2 =>
      obtain ⟨⟨d₁, row₁⟩, hcreate, h⟩ := bind_eq_ok.mp h
      cases h
      exact Pattern.create_grows hcreate
  case h_2 =>
    cases h
    exact .refl _

/-- A merge keeps what it finds for a row, and creates its pattern if it finds nothing. -/
theorem mergeRow_cases {p : Pattern} {d e : Draft} {row : Row} {found : List Row}
    (h : mergeRow .write p d row = .ok (e, found)) :
    (e = d ∧ found ≠ [] ∧ p.matches d.graph row = .ok found) ∨
      ∃ row', p.matches d.graph row = .ok [] ∧ p.create d row = .ok (e, row') ∧
        found = [row'] := by
  obtain ⟨matched, hmatched, h⟩ := bind_eq_ok.mp h
  cases matched with
  | nil =>
    obtain ⟨⟨e', row'⟩, hcreate, h⟩ := bind_eq_ok.mp h
    cases h
    exact .inr ⟨row', hmatched, hcreate, rfl⟩
  | cons first others =>
    cases h
    exact .inl ⟨rfl, List.cons_ne_nil _ _, hmatched⟩

theorem mergeRows_grows {access : Access} {p : Pattern} {d e : Draft} {rows found : List Row}
    (h : mergeRows access p d rows = .ok (e, found)) : d.Grows e := by
  induction rows generalizing d found with
  | nil =>
    cases h
    exact .refl _
  | cons row rows ih =>
    obtain ⟨⟨d₁, found₁⟩, hrow, h⟩ := bind_eq_ok.mp h
    obtain ⟨⟨d₂, found₂⟩, hrest, h⟩ := bind_eq_ok.mp h
    cases h
    exact (mergeRow_grows hrow).trans (ih hrest)

theorem Clause.run_grows {access : Access} {s t : Progress} {c : Clause}
    (h : c.run access s = .ok t) : s.draft.Grows t.draft := by
  cases c with
  | merge p =>
    obtain ⟨⟨d, rows⟩, hrows, h⟩ := bind_eq_ok.mp h
    cases h
    exact mergeRows_grows hrows
  | find p filter =>
    obtain ⟨rows, _, h⟩ := bind_eq_ok.mp h
    cases h
    exact .refl _
  | result items =>
    obtain ⟨rows, _, h⟩ := bind_eq_ok.mp h
    cases h
    exact .refl _

theorem runClauses_grows {access : Access} {s t : Progress} {query : Query}
    (h : runClauses access s query = .ok t) : s.draft.Grows t.draft := by
  induction query generalizing s with
  | nil =>
    cases h
    exact .refl _
  | cons c query ih =>
    obtain ⟨u, hfirst, hrest⟩ := bind_eq_ok.mp h
    exact (Clause.run_grows hfirst).trans (ih hrest)

end FieldGraph
