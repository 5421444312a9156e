import FieldGraph.Proofs.Statement.Clauses
import FieldGraph.Proofs.Statement.Comparable
import FieldGraph.Proofs.Statement.Occurrences
import FieldGraph.Proofs.Store.Growth

/-!
# Merging again

What a merge creates is an occurrence of its pattern, and what it finds is still there afterwards.
So the same merge finds something the next time, whatever its pattern is, and adds nothing.
-/
namespace FieldGraph

variable {g g' : Graph} {d e : Draft} {row row' : Row} {id : Nat}

/-- Rows that look up the same bindings bind nodes alike. -/
theorem Row.Nodes.congr (h : row.Nodes g) (hsame : ∀ name, row'.get? name = row.get? name) :
    row'.Nodes g := by
  intro name binding hget
  rw [hsame] at hget
  exact h name binding hget

namespace NodePattern

variable {p : NodePattern}

theorem Comparable.describes (h : p.Comparable) (id : Nat) :
    p.Describes ⟨id, p.label, p.propertyMap⟩ := by
  constructor
  · intro label hlabel
    exact hlabel
  · intro key value hlookup
    have hget : p.propertyMap.get? key = some value := by
      rw [propertyMap, SortedMap.get?_ofList]
      exact hlookup
    exact ⟨value, hget, h.same_of_get? hget⟩

theorem MetBy.mono (h : p.MetBy g row id) (hg : g.Extends g') : p.MetBy g' row id := by
  obtain ⟨⟨n, hn, hdescribes⟩, hname⟩ := h
  exact ⟨⟨n, hg.node? hn, hdescribes⟩, hname⟩

theorem MetBy.congr (h : p.MetBy g row id) (hsame : ∀ name, row'.get? name = row.get? name) :
    p.MetBy g row' id := by
  refine ⟨h.node, ?_⟩
  intro name binding hname hget
  rw [hsame] at hget
  exact h.name name binding hname hget

theorem metBy_of_create (hrow : row.Nodes d.graph) (hp : p.Comparable)
    (h : p.create d row = .ok (e, row', id)) :
    p.MetBy e.graph row id ∧ ∀ name, row'.get? name = (row.bind p.name (.node id)).get? name := by
  rcases create_cases h with ⟨hbound, hfree, rfl, rfl⟩ | ⟨hbound, rfl, rfl, rfl⟩
  · obtain ⟨name, hname, hget⟩ := boundNode_some hbound
    obtain ⟨n, hn⟩ : ∃ n, e.graph.node? id = some n := by
      obtain ⟨_, hlt, hnode⟩ := hrow name _ hget
      cases hnode
      exact Graph.exists_node? hlt
    refine ⟨⟨⟨n, hn, describes_of_unconstrained hfree n⟩, agrees_of_bound hbound⟩, ?_⟩
    intro other
    by_cases hother : p.name = some other
    · rw [Row.get?_bind_self _ _ hother]
      rw [hname] at hother
      cases hother
      exact hget
    · rw [Row.get?_bind_other _ _ hother]
  · refine ⟨⟨⟨_, d.graph.node?_addNode _ _, hp.describes _⟩, agrees_of_free hbound _⟩, ?_⟩
    intro name
    rfl

end NodePattern

namespace Pattern

variable {p : Pattern}

/-- What a pattern is created as is a place where it occurs, for the row that it is created for. -/
theorem occurs_of_create (hrow : row.Nodes d.graph) (hp : p.Comparable)
    (h : p.create d row = .ok (e, row')) : ∃ o, p.Occurs e.graph row o := by
  obtain ⟨hstartComparable, hstopComparable⟩ := hp
  cases created h with
  | node hstart =>
    obtain ⟨hmet, _⟩ := NodePattern.metBy_of_create hrow hstartComparable hstart
    exact ⟨_, .node hmet⟩
  | @hop start stop r edgeType d₁ d₂ _ row₁ row₂ s t source target hstart hstop htype hleads hadd =>
    obtain ⟨hmet, hsame⟩ := NodePattern.metBy_of_create hrow hstartComparable hstart
    have hgrows₁ := (NodePattern.create_grows hstart).graph
    have hgrows₂ := (NodePattern.create_grows hstop).graph
    have hgrows₃ := (Draft.grows_addEdge hadd).graph
    have hbound : (row.bind start.name (.node s)).Nodes d₁.graph :=
      (hrow.mono hgrows₁).bind start.name hmet.lt
    obtain ⟨hmet₂, _⟩ := NodePattern.metBy_of_create (hbound.congr hsame)
      (hstopComparable _ rfl) hstop
    obtain ⟨_, hedges⟩ := Draft.addEdge_ok hadd
    have hmem : ⟨d₂.graph.edgeCount, source, target, edgeType⟩ ∈ e.graph.edges := by
      rw [hedges]
      exact Array.mem_push_self
    refine ⟨_, .hop (hmet.mono (hgrows₂.trans hgrows₃)) hmem hleads ?_ ?_ ?_⟩
    · intro other hother
      rw [htype] at hother
      exact Option.some.inj hother
    · intro name bound _ hget
      obtain ⟨_, _, hnode⟩ := hbound name _ hget
      cases hnode
    · exact (hmet₂.mono hgrows₃).congr fun name => (hsame name).symm

/-- A pattern that occurs for a row of nodes is found. -/
theorem Occurs.matches_ne_nil {o : Occurrence} (h : p.Occurs g row o) (hrow : row.Nodes g) :
    ∃ found, p.matches g row = .ok found ∧ found ≠ [] := by
  obtain ⟨found, hfound, hmem⟩ := matches_of_nodes hrow p
  exact ⟨found, hfound, List.ne_nil_of_mem ((hmem _).mpr ⟨o, h, rfl⟩)⟩

end Pattern

variable {p : Pattern}

theorem mergeRow_of_found {access : Access} {found : List Row}
    (h : p.matches d.graph row = .ok found) (hfound : found ≠ []) :
    mergeRow access p d row = .ok (d, found) := by
  unfold mergeRow
  rw [h]
  cases found with
  | nil => exact absurd rfl hfound
  | cons first others => rfl

/-- After a merge for a row, the same merge for the row has nothing to add. -/
theorem mergeRow_again {found : List Row} (hrow : row.Nodes d.graph) (hp : p.Comparable)
    (h : mergeRow .write p d row = .ok (e, found)) (counters : Counters) :
    ∃ again, mergeRow .write p ⟨e.graph, counters⟩ row = .ok (⟨e.graph, counters⟩, again) := by
  have hgrows := (mergeRow_grows h).graph
  rcases mergeRow_cases h with ⟨rfl, hne, hmatches⟩ | ⟨row', _, hcreate, _⟩
  · exact ⟨found, mergeRow_of_found hmatches hne⟩
  · obtain ⟨o, ho⟩ := Pattern.occurs_of_create hrow hp hcreate
    obtain ⟨again, hmatches, hne⟩ := ho.matches_ne_nil (hrow.mono hgrows)
    exact ⟨again, mergeRow_of_found hmatches hne⟩

/-- A statement that is one merge does what the merge does for the row without bindings. -/
theorem Graph.runText_merge {statement : String}
    (hparse : Script.parse statement = .ok [[.merge p]]) (g : Graph) :
    g.runText statement =
      match mergeRow .write p ⟨g, .zero⟩ [] with
      | .ok (d, _) => .ok (⟨[], [], d.counters.lines⟩, d.graph)
      | .error cause => .error (.invalidOperation cause) := by
  have hread : Script.isReadOnly [[.merge p]] = false := rfl
  have hlast : resultIsLast [.merge p] = true := rfl
  cases hmerge : mergeRow .write p ⟨g, .zero⟩ [] with
  | error cause =>
    simp [Graph.runText, hparse, hread, Script.run, runQueries, Query.run, hlast, runClauses,
      Clause.run, mergeRows, hmerge, bind, Except.bind]
  | ok result =>
    obtain ⟨d, found⟩ := result
    simp [Graph.runText, hparse, hread, Script.run, runQueries, Query.run, hlast, runClauses,
      Clause.run, mergeRows, hmerge, bind, Except.bind, pure, Except.pure, QueryTable.answer,
      QueryTable.empty, Counters.zero_add]

/-- Running a statement that is one merge a second time succeeds, changes nothing and reports
nothing. -/
theorem merge_again_unchanged {statement : String} {answer : Table}
    (hparse : Script.parse statement = .ok [[.merge p]])
    (h : memoryStore.submit statement g = (.answered answer, g')) :
    memoryStore.submit statement g' = (.answered ⟨[], [], []⟩, g') := by
  rcases submit_cases h with ⟨_, hreply, hrun⟩ | ⟨_, hreply, _⟩
  · cases hreply
    have hp : p.Comparable :=
      Script.comparable_of_parse hparse (List.mem_singleton_self _) (List.mem_singleton_self _)
    rw [Graph.runText_merge hparse] at hrun
    split at hrun
    case h_1 e found hmerge =>
      cases hrun
      obtain ⟨again, hagain⟩ := mergeRow_again (Row.nodes_nil g) hp hmerge .zero
      have hsecond : e.graph.runText statement = .ok (⟨[], [], []⟩, e.graph) := by
        rw [Graph.runText_merge hparse, hagain]
        rfl
      simp only [memoryStore, hsecond]
    case h_2 => cases hrun
  · cases hreply

/-- A loop without a direction, whose variable hides that of its node. -/
def loopText : String := "MERGE (a:User \x7bid: 1, id: 2\x7d)-[a:knows]-(a)"

theorem parse_loopText :
    Script.parse loopText = .ok [[.merge ⟨⟨some "a", some "User", [("id", .int 1), ("id", .int 2)]⟩,
      some (⟨some "a", some "knows", .both⟩, ⟨some "a", none, []⟩)⟩]] :=
  Script.parse_of_lex [⟨.keyword .mergeWord, 0⟩, ⟨.openParen, 6⟩, ⟨.identifier "a", 7⟩, ⟨.colon, 8⟩,
    ⟨.identifier "User", 9⟩, ⟨.openBrace, 14⟩, ⟨.identifier "id", 15⟩, ⟨.colon, 17⟩,
    ⟨.integer 1, 19⟩, ⟨.comma, 20⟩, ⟨.identifier "id", 22⟩, ⟨.colon, 24⟩, ⟨.integer 2, 26⟩,
    ⟨.closeBrace, 27⟩, ⟨.closeParen, 28⟩, ⟨.dash, 29⟩, ⟨.openBracket, 30⟩, ⟨.identifier "a", 31⟩,
    ⟨.colon, 32⟩, ⟨.identifier "knows", 33⟩, ⟨.closeBracket, 38⟩, ⟨.dash, 39⟩, ⟨.openParen, 40⟩,
    ⟨.identifier "a", 41⟩, ⟨.closeParen, 42⟩]
    (by decide +kernel) fun _ => rfl

theorem loop_merged_again :
    ∃ answer g, memoryStore.submit loopText .empty = (.answered answer, g) ∧
      answer.stats = ["Nodes created: 1", "Properties set: 1", "Relationships created: 1"] ∧
      memoryStore.submit loopText g = (.answered ⟨[], [], []⟩, g) := by
  have hstats : (Graph.empty.runText loopText).toOption.map (fun result => result.1.stats) =
      some ["Nodes created: 1", "Properties set: 1", "Relationships created: 1"] := by
    decide +kernel
  obtain ⟨answer, g, hsubmit, hanswer⟩ := submit_answered hstats
  exact ⟨answer, g, hsubmit, hanswer, merge_again_unchanged parse_loopText hsubmit⟩

end FieldGraph
