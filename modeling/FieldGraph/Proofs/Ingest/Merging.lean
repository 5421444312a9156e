import FieldGraph.Proofs.Ingest.Embedding
import FieldGraph.Proofs.Value.Equality

/-!
# Merging compiled statements

A merge of a compiled statement never fails on rows that bind nodes only. It makes rows in which
the statement holds out of every row, and it adds to the graph exactly if for some row the
statement did not hold.
-/
namespace FieldGraph

variable {objects : List (List (String × Json))}

theorem Value.Writable.same_self {v : Value} (h : v.Writable) : v.same v = true := by
  induction h with
  | null => rfl
  | bool b => simp [Value.same]
  | int h => simp [Value.same]
  | float x => simp [Value.same, Binary64.same]
  | string s => simp [Value.same]
  | list _ ih => exact Value.sameAll_self ih

/-- What a document says of a property is equal to itself, since it is never not-a-number. -/
theorem same_self_of_ofScalar? {json : Json} {value : Value}
    (h : Value.ofScalar? json = some value) : value.same value = true := by
  by_cases hmin : value = .int Int64.minValue
  · rw [hmin]
    rfl
  · exact (writable_of_ofScalar? h hmin).same_self

theorem Mutation.Compiled.holds_addNode {id : Nat} {label : String}
    {properties : List (String × Value)} (hm : (mergeNode id label properties).Compiled objects)
    (hobjects : Json.DistinctKeys objects) (g : Graph) :
    (mergeNode id label properties).HoldsIn (g.addNode label (.ofList properties))
      fun _ => g.nodeCount := by
  have hnodup := hm.keys_nodup hobjects
  cases hm with
  | node _ hproperties =>
    refine ⟨_, g.node?_addNode _ _, rfl, fun p hp => ⟨p.2, ?_, ?_⟩⟩
    · exact (SortedMap.get?_ofList_of_nodup hnodup).mpr hp
    · obtain ⟨_, json, _, _, hscalar⟩ := mem_propertiesOf hproperties hp
      exact same_self_of_ofScalar? hscalar

theorem NodePattern.create_free {d : Draft} {row : Row} (hrow : row.Nodes d.graph) (id : Nat) :
    ∃ e row' k, NodePattern.create ⟨Mutation.variableOf id, none, []⟩ d row = .ok (e, row', k) ∧
      row.Binds id k row' ∧ row'.Nodes e.graph := by
  unfold NodePattern.create
  rw [boundNode_eq hrow]
  cases hbound : row.node? (Mutation.variableOf id) with
  | some k =>
    refine ⟨d, row, k, ?_, Row.binds_self hbound, hrow⟩
    rw [Option.bind_some, hbound]
    rfl
  | none =>
    refine ⟨d.addNode none (.ofList []), (Mutation.variableOf id, .node d.graph.nodeCount) :: row,
      d.graph.nodeCount, ?_, Row.binds_cons fun j hj => ?_, ?_⟩
    · rw [Option.bind_some, hbound]
      rfl
    · rw [Row.numbered, hbound] at hj
      cases hj
    · exact (hrow.mono (d.graph.extends_addNode _ _)).cons _
        (Graph.node?_lt (d.graph.node?_addNode _ _))

theorem Draft.addEdge_spec (d : Draft) {source target : Nat} (edgeType : String)
    (hsource : source < d.graph.nodeCount) (htarget : target < d.graph.nodeCount) :
    ∃ e, d.addEdge source target edgeType = .ok e ∧ d.graph.size < e.graph.size ∧
      ∃ x ∈ e.graph.edges, x.edgeType = edgeType ∧ x.source = source ∧ x.target = target := by
  have hadd := d.graph.addEdge_of_lt edgeType hsource htarget
  refine ⟨_, by rw [addEdge, hadd], ?_, _, Array.mem_push_self, rfl, rfl, rfl⟩
  simp [Graph.size, Graph.nodeCount, Graph.edgeCount, Graph.linkNodes]

theorem Pattern.create_outgoing {start stop : NodePattern} {edgeType : String} {d d₁ d₂ e : Draft}
    {row row₁ row₂ : Row} {k l : Nat} (hstart : start.create d row = .ok (d₁, row₁, k))
    (hstop : stop.create d₁ row₁ = .ok (d₂, row₂, l)) (hadd : d₂.addEdge k l edgeType = .ok e) :
    Pattern.create ⟨start, some (⟨none, edgeType, .outgoing⟩, stop)⟩ d row = .ok (e, row₂) := by
  simp only [Pattern.create, hstart, hstop, hadd, bind, Except.bind]
  rfl

/-- What is created for a statement is something in which it holds. -/
theorem Mutation.Compiled.create_spec {m : Mutation} {p : Pattern} {d : Draft} {row : Row}
    (hm : m.Compiled objects) (hobjects : Json.DistinctKeys objects)
    (hp : m.pattern? = some p) (hrow : row.Nodes d.graph)
    (hfresh : ∀ id ∈ m.described, row.numbered id = none) :
    ∃ e row', p.create d row = .ok (e, row') ∧ d.graph.size < e.graph.size ∧
      Row.Follows m e.graph row row' := by
  cases m with
  | mergeNode id label properties =>
    cases hp
    have hnone : row.numbered id = none := hfresh id List.mem_cons_self
    have hholds := hm.holds_addNode hobjects d.graph
    refine ⟨d.addNode label (.ofList properties),
      (variableOf id, .node d.graph.nodeCount) :: row, ?_, ?_, ?_⟩
    · have hbound : (some (variableOf id)).bind row.node? = none := hnone
      rw [Pattern.create, NodePattern.create, NodePattern.boundNode_eq hrow, hbound]
      rfl
    · simp [Draft.addNode, Graph.size, Graph.nodeCount, Graph.edgeCount, Graph.addNode]
    · refine (Row.binds_cons fun j hj => ?_).follows_node ?_ hholds
      · rw [hnone] at hj
        cases hj
      · exact (hrow.mono (d.graph.extends_addNode _ _)).cons _ (hholds.lt List.mem_cons_self)
  | mergeEdge child edgeType parent =>
    cases hp
    obtain ⟨d₁, row₁, k, hstart, hchild, hrow₁⟩ := NodePattern.create_free hrow child
    obtain ⟨d₂, row₂, l, hstop, hparent, hrow₂⟩ := NodePattern.create_free hrow₁ parent
    have hk : k < d₂.graph.nodeCount := hrow₂.lt (hparent.keeps hchild.self)
    have hl : l < d₂.graph.nodeCount := hrow₂.lt hparent.self
    obtain ⟨e, hadd, hsize, hedge⟩ := d₂.addEdge_spec edgeType hk hl
    have hgrows := (NodePattern.create_grows hstart).trans (NodePattern.create_grows hstop)
    exact ⟨e, row₂, Pattern.create_outgoing hstart hstop hadd,
      Nat.lt_of_le_of_lt hgrows.graph.size_le hsize,
      hchild.follows_edge hparent (hrow₂.mono (Draft.grows_addEdge hadd).graph) hedge⟩
  | raw text => cases hm

/-- What merging a statement makes of rows. Every row is continued by rows in which the statement
holds. If it held in all of them, these are all its ways to hold and nothing is added; and if it
did not hold in one of them, then the graph has grown. -/
structure Merged (m : Mutation) (d e : Draft) (rows found : List Row) : Prop where
  grows : d.Grows e
  follows : ∀ row' ∈ found, ∃ row ∈ rows, Row.Follows m e.graph row row'
  continued : ∀ row ∈ rows, ∃ row' ∈ found, Row.Follows m e.graph row row'
  added : (e = d ∧ ∀ row ∈ rows, ∀ nodeOf, row.Agrees nodeOf → m.HoldsIn d.graph nodeOf →
      ∃ row' ∈ found, row'.Agrees nodeOf) ∨
    (d.graph.size < e.graph.size ∧
      ∃ row ∈ rows, ∀ nodeOf, row.Agrees nodeOf → ¬m.HoldsIn d.graph nodeOf)

namespace Merged

variable {m : Mutation} {p : Pattern} {d d₁ e : Draft} {row : Row} {rows found found₁ : List Row}

theorem nil (m : Mutation) (d : Draft) : Merged m d d [] [] :=
  ⟨.refl d, by simp, by simp, .inl ⟨rfl, by simp⟩⟩

theorem cons (hrow : Merged m d d₁ [row] found₁) (hrest : Merged m d₁ e rows found) :
    Merged m d e (row :: rows) (found₁ ++ found) := by
  have hgraph := hrest.grows.graph
  refine ⟨hrow.grows.trans hrest.grows, ?_, ?_, ?_⟩
  · intro row' hmem
    rcases List.mem_append.mp hmem with hmem | hmem
    · obtain ⟨other, hother, hfollows⟩ := hrow.follows row' hmem
      rw [List.mem_singleton.mp hother] at hfollows
      exact ⟨row, List.mem_cons_self, hfollows.mono hgraph⟩
    · obtain ⟨other, hother, hfollows⟩ := hrest.follows row' hmem
      exact ⟨other, List.mem_cons_of_mem _ hother, hfollows⟩
  · intro other hother
    rcases List.mem_cons.mp hother with rfl | hother
    · obtain ⟨row', hrow', hfollows⟩ := hrow.continued other List.mem_cons_self
      exact ⟨row', List.mem_append_left _ hrow', hfollows.mono hgraph⟩
    · obtain ⟨row', hrow', hfollows⟩ := hrest.continued other hother
      exact ⟨row', List.mem_append_right _ hrow', hfollows⟩
  · -- What the first row created is there for the others, so only the first addition tells of
    -- the graph before.
    rcases hrow.added with ⟨rfl, hfirst⟩ | ⟨hsize, other, hother, hnot⟩
    · rcases hrest.added with ⟨rfl, hothers⟩ | ⟨hsize, other, hother, hnot⟩
      · refine .inl ⟨rfl, fun other hother nodeOf hagrees hholds => ?_⟩
        rcases List.mem_cons.mp hother with rfl | hother
        · obtain ⟨row', hrow', hall⟩ := hfirst other List.mem_cons_self nodeOf hagrees hholds
          exact ⟨row', List.mem_append_left _ hrow', hall⟩
        · obtain ⟨row', hrow', hall⟩ := hothers other hother nodeOf hagrees hholds
          exact ⟨row', List.mem_append_right _ hrow', hall⟩
      · exact .inr ⟨hsize, other, List.mem_cons_of_mem _ hother, hnot⟩
    · rw [List.mem_singleton.mp hother] at hnot
      exact .inr ⟨Nat.lt_of_lt_of_le hsize hgraph.size_le, row, List.mem_cons_self, hnot⟩

end Merged

theorem mergeRow_spec {m : Mutation} {p : Pattern} {d : Draft} {row : Row}
    (hm : m.Compiled objects) (hobjects : Json.DistinctKeys objects)
    (hp : m.pattern? = some p) (hrow : row.Nodes d.graph)
    (hfresh : ∀ id ∈ m.described, row.numbered id = none) :
    ∃ e found, mergeRow .write p d row = .ok (e, found) ∧ Merged m d e [row] found := by
  obtain ⟨found, hfound, hways⟩ := hm.matches_spec hobjects hp hrow
  cases found with
  | nil =>
    obtain ⟨e, row', hcreate, hsize, hfollows⟩ := hm.create_spec hobjects hp hrow hfresh
    refine ⟨e, [row'], ?_, Pattern.create_grows hcreate, ?_, ?_, .inr ⟨hsize, row, by simp, ?_⟩⟩
    · simp only [mergeRow, hfound, hcreate, bind, Except.bind]
      rfl
    · intro other hother
      rw [List.mem_singleton.mp hother]
      exact ⟨row, List.mem_cons_self, hfollows⟩
    · intro other hother
      rw [List.mem_singleton.mp hother]
      exact ⟨row', List.mem_cons_self, hfollows⟩
    · intro nodeOf hagrees hholds
      obtain ⟨_, hmem, _⟩ := hways.complete nodeOf hagrees hholds
      cases hmem
  | cons first others =>
    refine ⟨d, first :: others, ?_, .refl d, ?_, ?_, .inl ⟨rfl, ?_⟩⟩
    · simp only [mergeRow, hfound, bind, Except.bind]
      rfl
    · intro row' hrow'
      exact ⟨row, List.mem_cons_self, hways.follows row' hrow'⟩
    · intro other hother
      rw [List.mem_singleton.mp hother]
      exact ⟨first, List.mem_cons_self, hways.follows first List.mem_cons_self⟩
    · intro other hother
      rw [List.mem_singleton.mp hother]
      exact hways.complete

theorem mergeRows_spec {m : Mutation} {p : Pattern} {d : Draft} {rows : List Row}
    (hm : m.Compiled objects) (hobjects : Json.DistinctKeys objects)
    (hp : m.pattern? = some p) (hrows : ∀ row ∈ rows, row.Nodes d.graph)
    (hfresh : ∀ row ∈ rows, ∀ id ∈ m.described, row.numbered id = none) :
    ∃ e found, mergeRows .write p d rows = .ok (e, found) ∧ Merged m d e rows found := by
  induction rows generalizing d with
  | nil => exact ⟨d, [], rfl, .nil m d⟩
  | cons row rows ih =>
    obtain ⟨d₁, found₁, hrow, hmerged⟩ := mergeRow_spec hm hobjects hp
      (hrows row List.mem_cons_self) (hfresh row List.mem_cons_self)
    obtain ⟨e, found, hrest, hmergeds⟩ := ih
      (fun other hother => (hrows other (List.mem_cons_of_mem _ hother)).mono hmerged.grows.graph)
      (fun other hother => hfresh other (List.mem_cons_of_mem _ hother))
    refine ⟨e, found₁ ++ found, ?_, hmerged.cons hmergeds⟩
    simp only [mergeRows, hrow, hrest, bind, Except.bind]
    rfl

end FieldGraph
