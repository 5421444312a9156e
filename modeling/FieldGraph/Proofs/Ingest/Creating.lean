import FieldGraph.Proofs.Ingest.Merging
import Mathlib.Data.Finset.Card

/-!
# What a merge creates

A merge creates something for a row only if its pattern does not occur for the row. For a compiled
statement it then adds a node for every number that the row does not bind, and for an edge statement
one edge.
-/
namespace FieldGraph

def Graph.Blank (g : Graph) (id : Nat) : Prop :=
  ∃ n, g.node? id = some n ∧ n.label = none ∧ n.properties.size = 0

theorem Graph.Blank.mono {g g' : Graph} {id : Nat} (h : g.Blank id) (hg : g.Extends g') :
    g'.Blank id := by
  obtain ⟨n, hn, hrest⟩ := h
  exact ⟨n, hg.node? hn, hrest⟩

theorem Graph.blank_addNode (g : Graph) : (g.addNode none (.ofList [])).Blank g.nodeCount :=
  ⟨_, g.node?_addNode _ _, rfl, rfl⟩

def Row.Knows (row : Row) (known : Finset Nat) : Prop :=
  ∀ id, (row.numbered id).isSome = true ↔ id ∈ known

theorem Row.Knows.eq_none_iff {row : Row} {known : Finset Nat} (h : row.Knows known) {id : Nat} :
    row.numbered id = none ↔ id ∉ known := by
  rw [← Option.not_isSome_iff_eq_none, h]

theorem Row.Binds.knows {row row' : Row} {id k : Nat} {known : Finset Nat}
    (h : row.Binds id k row') (hknown : row.Knows known) : row'.Knows (insert id known) := by
  intro other
  rw [h.numbered, Finset.mem_insert]
  by_cases heq : other = id
  · simp [heq]
  · simp [heq, hknown other]

section

variable {d e : Draft} {row row' : Row} {k : Nat}

theorem NodePattern.create_free_cases {id : Nat} (hrow : row.Nodes d.graph)
    (h : NodePattern.create ⟨Mutation.variableOf id, none, []⟩ d row = .ok (e, row', k)) :
    row.Binds id k row' ∧ row'.Nodes e.graph ∧ e.graph.edges = d.graph.edges ∧
      (row.numbered id = some k ∧ e.graph.nodeCount = d.graph.nodeCount ∨
        row.numbered id = none ∧ e.graph.nodeCount = d.graph.nodeCount + 1 ∧
          e.graph.Blank k) := by
  obtain ⟨_, _, _, hcreate, hbinds, hnodes⟩ := NodePattern.create_free hrow id
  rw [h] at hcreate
  cases hcreate
  refine ⟨hbinds, hnodes, ?_⟩
  rcases NodePattern.create_cases h with ⟨hbound, _, rfl, _⟩ | ⟨hbound, rfl, rfl, _⟩
  · rw [NodePattern.boundNode_eq hrow] at hbound
    exact ⟨rfl, .inl ⟨Except.ok.inj hbound, rfl⟩⟩
  · rw [NodePattern.boundNode_eq hrow] at hbound
    refine ⟨rfl, .inr ⟨Except.ok.inj hbound, ?_, d.graph.blank_addNode⟩⟩
    simp [Draft.addNode, Graph.addNode, Graph.nodeCount]

theorem NodePattern.create_free_counts {id : Nat} {known : Finset Nat} (hrow : row.Nodes d.graph)
    (hknown : row.Knows known)
    (h : NodePattern.create ⟨Mutation.variableOf id, none, []⟩ d row = .ok (e, row', k)) :
    e.graph.nodeCount + known.card = d.graph.nodeCount + (insert id known).card := by
  obtain ⟨_, _, _, ⟨hbound, hcount⟩ | ⟨hnone, hcount, _⟩⟩ := create_free_cases hrow h
  · have hmem : id ∈ known := (hknown id).mp (by rw [hbound]; rfl)
    rw [hcount, Finset.insert_eq_of_mem hmem]
  · rw [hcount, Finset.card_insert_of_notMem (hknown.eq_none_iff.mp hnone)]
    omega

variable {child parent : Nat} {edgeType : String}

abbrev Pattern.link (child : Nat) (edgeType : String) (parent : Nat) : Pattern :=
  ⟨⟨Mutation.variableOf child, none, []⟩,
    some (⟨none, edgeType, .outgoing⟩, ⟨Mutation.variableOf parent, none, []⟩)⟩

theorem Pattern.create_link_steps
    (h : (Pattern.link child edgeType parent).create d row = .ok (e, row')) :
    ∃ d₁ row₁ d₂ k l,
      NodePattern.create ⟨Mutation.variableOf child, none, []⟩ d row = .ok (d₁, row₁, k) ∧
      NodePattern.create ⟨Mutation.variableOf parent, none, []⟩ d₁ row₁ = .ok (d₂, row', l) ∧
      d₂.addEdge k l edgeType = .ok e := by
  cases created h with
  | @hop _ _ _ _ d₁ d₂ _ row₁ _ _ _ k l hstart hstop htype hleads hadd =>
    cases htype
    obtain ⟨rfl, rfl⟩ := hleads
    exact ⟨d₁, row₁, d₂, k, l, hstart, hstop, hadd⟩

/-- The new edge goes to the node of the parent. Unless the row bound the parent to a node before,
that is a new node, which is blank. -/
theorem Pattern.create_link (hrow : row.Nodes d.graph) (hne : child ≠ parent)
    (h : (Pattern.link child edgeType parent).create d row = .ok (e, row')) :
    ∃ k l, e.graph.edges = d.graph.edges.push ⟨d.graph.edgeCount, k, l, edgeType⟩ ∧
      row'.numbered parent = some l ∧ (row.numbered parent = some l ∨ e.graph.Blank l) := by
  obtain ⟨d₁, row₁, d₂, k, l, hstart, hstop, hadd⟩ := create_link_steps h
  obtain ⟨hchild, hrow₁, hedges₁, _⟩ := NodePattern.create_free_cases hrow hstart
  obtain ⟨hparent, _, hedges₂, hcases⟩ := NodePattern.create_free_cases hrow₁ hstop
  obtain ⟨_, hedges⟩ := Draft.addEdge_ok hadd
  refine ⟨k, l, ?_, hparent.self, ?_⟩
  · rw [hedges, Graph.edgeCount, hedges₂, hedges₁]
    rfl
  · rcases hcases with ⟨hbound, _⟩ | ⟨_, _, hblank⟩
    · rw [hchild.numbered, if_neg hne.symm] at hbound
      exact .inl hbound
    · exact .inr (hblank.mono (Draft.grows_addEdge hadd).graph)

theorem Pattern.create_link_counts {known : Finset Nat} (hrow : row.Nodes d.graph)
    (hknown : row.Knows known)
    (h : (Pattern.link child edgeType parent).create d row = .ok (e, row')) :
    e.graph.nodeCount + known.card = d.graph.nodeCount + (insert parent (insert child known)).card ∧
      e.graph.edgeCount = d.graph.edgeCount + 1 := by
  obtain ⟨d₁, row₁, d₂, k, l, hstart, hstop, hadd⟩ := create_link_steps h
  obtain ⟨hchild, hrow₁, hedges₁, _⟩ := NodePattern.create_free_cases hrow hstart
  obtain ⟨_, _, hedges₂, _⟩ := NodePattern.create_free_cases hrow₁ hstop
  have hfirst := NodePattern.create_free_counts hrow hknown hstart
  have hsecond := NodePattern.create_free_counts hrow₁ (hchild.knows hknown) hstop
  obtain ⟨hnodes, hedges⟩ := Draft.addEdge_ok hadd
  constructor
  · have hcount : e.graph.nodeCount = d₂.graph.nodeCount := by
      rw [Graph.nodeCount, hnodes]
      rfl
    omega
  · rw [Graph.edgeCount, hedges, Array.size_push, hedges₂, hedges₁]
    rfl

end

/-- A creation adds a node for each number that is not bound, and an edge for an edge statement. -/
theorem Mutation.Compiled.create_counts {objects : List (List (String × Json))} {m : Mutation}
    {p : Pattern} {d e : Draft} {row row' : Row} {known : Finset Nat} (hm : m.Compiled objects)
    (hp : m.pattern? = some p) (hrow : row.Nodes d.graph) (hknown : row.Knows known)
    (hfresh : ∀ id ∈ m.described, id ∉ known) (h : p.create d row = .ok (e, row')) :
    e.graph.nodeCount = d.graph.nodeCount + (m.ids.toFinset \ known).card ∧
      e.graph.edgeCount = d.graph.edgeCount + if m.isEdge then 1 else 0 := by
  cases m with
  | mergeNode id label properties =>
    cases hp
    have hnew : id ∉ known := hfresh id List.mem_cons_self
    have hbound : (some (variableOf id)).bind row.node? = none := hknown.eq_none_iff.mpr hnew
    rw [Pattern.create, NodePattern.create, NodePattern.boundNode_eq hrow, hbound] at h
    cases h
    have hids : (ids (mergeNode id label properties)).toFinset \ known = {id} :=
      Finset.sdiff_eq_self_of_disjoint (Finset.disjoint_singleton_left.mpr hnew)
    constructor
    · rw [hids]
      simp [Draft.addNode, Graph.addNode, Graph.nodeCount]
    · rfl
  | mergeEdge child edgeType parent =>
    cases hp
    obtain ⟨hnodes, hedges⟩ := Pattern.create_link_counts hrow hknown h
    refine ⟨?_, hedges⟩
    have hsplit := Finset.card_sdiff_add_card (ids (mergeEdge child edgeType parent)).toFinset known
    have hunion : (ids (mergeEdge child edgeType parent)).toFinset ∪ known =
        insert parent (insert child known) := by
      ext id
      simp [ids]
      tauto
    rw [hunion] at hsplit
    omega
  | raw text => cases hm

end FieldGraph
