import FieldGraph.Proofs.Graph.Basic
import FieldGraph.Store.Memory

/-!
# What statements do to the graph

A statement adds nodes and edges behind those that are there. It adds nothing if it fails, at
whatever clause that is, and nothing if it has no merge.
-/
namespace FieldGraph

variable {access : Access} {g g' : Graph} {d e : Draft} {s t : Progress} {table found : QueryTable}

def Store.after {σ : Type} (s : Store σ) (state : σ) : List String → σ
  | [] => state
  | statement :: rest => s.after (s.submit statement state).2 rest

/-- The second graph is the first one with nodes and edges behind it that carry on its numbers. -/
structure Graph.NumbersOn (g g' : Graph) : Prop where
  nodes : ∃ added, g'.nodes.toList = g.nodes.toList ++ added ∧
    added.map Node.id = List.range' g.nodeCount added.length
  edges : ∃ added, g'.edges.toList = g.edges.toList ++ added ∧
    added.map Edge.id = List.range' g.edgeCount added.length

theorem map_eq_range' {α : Type} {all front added : List α} {f : α → Nat}
    (hall : all = front ++ added) (hid : ∀ i (h : i < all.length), f all[i] = i) :
    added.map f = List.range' front.length added.length := by
  subst hall
  apply List.ext_getElem
  · rw [List.length_map, List.length_range']
  · intro i hi _
    rw [List.length_map] at hi
    have hplace := hid (front.length + i) (by rw [List.length_append]; omega)
    rw [List.getElem_append_right (by omega)] at hplace
    simpa using hplace

theorem Graph.Extends.numbersOn (h : g.Extends g') : g.NumbersOn g' := by
  obtain ⟨nodes, hnodes⟩ := h.nodes
  obtain ⟨edges, hedges⟩ := h.edges
  refine ⟨⟨nodes, hnodes.symm, ?_⟩, ⟨edges, hedges.symm, ?_⟩⟩
  · apply map_eq_range' hnodes.symm
    intro i hi
    exact g'.node_ids i (by simpa using hi)
  · apply map_eq_range' hedges.symm
    intro i hi
    exact g'.edge_ids i (by simpa using hi)

theorem Query.run_grows {query : Query} (h : Query.run access g query = .ok (e, table)) :
    Draft.Grows ⟨g, .zero⟩ e := by
  unfold Query.run at h
  split at h
  · obtain ⟨s, hrun, h⟩ := bind_eq_ok.mp h
    cases h
    exact runClauses_grows hrun
  · cases h

theorem Draft.Grows.absorb {next : Draft} (h : Draft.Grows ⟨d.graph, .zero⟩ next) :
    d.Grows ⟨next.graph, d.counters.add next.counters⟩ := by
  have hnodes := h.nodes
  have hproperties := h.properties
  have hedges := h.edges
  simp only [Counters.zero] at hnodes hproperties hedges
  constructor
  · exact h.graph
  · simp only [Counters.add]
    omega
  · simp only [Counters.add]
    omega
  · simp only [Counters.add]
    omega

theorem runQueries_grows {script : Script} (h : runQueries access d table script = .ok (e, found)) :
    d.Grows e := by
  induction script generalizing d table with
  | nil =>
    cases h
    exact .refl _
  | cons query script ih =>
    obtain ⟨⟨next, last⟩, hquery, hrest⟩ := bind_eq_ok.mp h
    exact (Query.run_grows hquery).absorb.trans (ih hrest)

theorem Script.run_grows {script : Script} (h : Script.run access g script = .ok (e, table)) :
    Draft.Grows ⟨g, .zero⟩ e :=
  runQueries_grows h

theorem mergeRow_read {p : Pattern} {row : Row} {rows : List Row}
    (h : mergeRow .read p d row = .ok (e, rows)) : e = d := by
  obtain ⟨found, _, h⟩ := bind_eq_ok.mp h
  cases found with
  | nil => cases h
  | cons first others =>
    cases h
    rfl

theorem mergeRows_read {p : Pattern} {rows found : List Row}
    (h : mergeRows .read p d rows = .ok (e, found)) : e = d := by
  induction rows generalizing d found with
  | nil =>
    cases h
    rfl
  | cons row rows ih =>
    obtain ⟨⟨d₁, found₁⟩, hrow, h⟩ := bind_eq_ok.mp h
    obtain ⟨⟨d₂, found₂⟩, hrest, h⟩ := bind_eq_ok.mp h
    cases h
    rw [ih hrest, mergeRow_read hrow]

theorem Clause.run_read {c : Clause} (h : c.run .read s = .ok t) : t.draft = s.draft := by
  cases c with
  | find p filter =>
    obtain ⟨rows, _, h⟩ := bind_eq_ok.mp h
    cases h
    rfl
  | merge p =>
    obtain ⟨⟨d, rows⟩, hrows, h⟩ := bind_eq_ok.mp h
    cases h
    exact mergeRows_read hrows
  | result items =>
    obtain ⟨rows, _, h⟩ := bind_eq_ok.mp h
    cases h
    rfl

theorem runClauses_read {query : Query} (h : runClauses .read s query = .ok t) :
    t.draft = s.draft := by
  induction query generalizing s with
  | nil =>
    cases h
    rfl
  | cons c query ih =>
    obtain ⟨u, hfirst, hrest⟩ := bind_eq_ok.mp h
    rw [ih hrest, Clause.run_read hfirst]

theorem Query.run_read {query : Query} (h : Query.run .read g query = .ok (e, table)) :
    e = ⟨g, .zero⟩ := by
  unfold Query.run at h
  split at h
  · obtain ⟨s, hrun, h⟩ := bind_eq_ok.mp h
    cases h
    exact runClauses_read hrun
  · cases h

theorem runQueries_read {script : Script} (h : runQueries .read d table script = .ok (e, found)) :
    e = d := by
  induction script generalizing d table with
  | nil =>
    cases h
    rfl
  | cons query script ih =>
    obtain ⟨⟨next, last⟩, hquery, hrest⟩ := bind_eq_ok.mp h
    rw [ih hrest, Query.run_read hquery]
    rfl

theorem Script.run_read {script : Script} (h : Script.run .read g script = .ok (e, table)) :
    e = ⟨g, .zero⟩ :=
  runQueries_read h

def Script.neededAccess (script : Script) : Access := if script.isReadOnly then .read else .write

/-- A statement that succeeds leaves what its script made of the graph, and reports what the
script counted. -/
theorem Graph.runText_ok {statement : String} {answer : Table}
    (h : g.runText statement = .ok (answer, g')) :
    ∃ script d table, Script.parse statement = .ok script ∧
      Script.run script.neededAccess g script = .ok (d, table) ∧
      answer = table.answer d.counters ∧ g' = d.graph := by
  unfold Graph.runText at h
  split at h
  case h_1 => cases h
  case h_2 script hparse =>
    dsimp only at h
    split at h
    case h_1 => cases h
    case h_2 d table hrun =>
      refine ⟨script, d, table, hparse, hrun, ?_, ?_⟩
      · cases h
        rfl
      · cases hread : script.isReadOnly with
        | false =>
          rw [hread] at h
          cases h
          rfl
        | true =>
          -- The graph is kept, and it is also what a run that may only read comes to.
          rw [hread] at h hrun
          rw [Script.run_read hrun]
          cases h
          rfl

theorem submit_cases {statement : String} {reply : Reply}
    (h : memoryStore.submit statement g = (reply, g')) :
    (∃ answer, reply = .answered answer ∧ g.runText statement = .ok (answer, g')) ∨
      (∃ e, reply = .failed e ∧ g' = g) := by
  unfold memoryStore at h
  dsimp only at h
  split at h
  case h_1 answer next hrun =>
    cases h
    exact .inl ⟨answer, rfl, hrun⟩
  case h_2 e _ =>
    cases h
    exact .inr ⟨e, rfl, rfl⟩

theorem submit_extends {statement : String} {reply : Reply}
    (h : memoryStore.submit statement g = (reply, g')) : g.Extends g' := by
  rcases submit_cases h with ⟨answer, _, hrun⟩ | ⟨e, _, rfl⟩
  · obtain ⟨script, d, table, _, hscript, _, rfl⟩ := Graph.runText_ok hrun
    exact (Script.run_grows hscript).graph
  · exact .refl _

theorem after_extends (g : Graph) (statements : List String) :
    g.Extends (memoryStore.after g statements) := by
  induction statements generalizing g with
  | nil => exact .refl _
  | cons statement statements ih =>
    have hfirst : g.Extends (memoryStore.submit statement g).2 := submit_extends rfl
    exact hfirst.trans (ih _)

/-- Whatever statements a store has run, a further one keeps all that is there, and numbers on what
it adds. If it fails or has no merge then the graph stays the same. -/
theorem statement_only_adds (start : Graph) (earlier : List String) {statement : String}
    {reply : Reply} (hreached : memoryStore.after start earlier = g)
    (h : memoryStore.submit statement g = (reply, g')) :
    start.NumbersOn g' ∧ g.NumbersOn g' ∧ (∀ e, reply = .failed e → g' = g) ∧
      ((∀ script, Script.parse statement = .ok script →
        ∀ query ∈ script, ∀ c ∈ query, c.isMerge = false) → g' = g) := by
  have hextends := submit_extends h
  have hstart : start.Extends g := hreached ▸ after_extends start earlier
  refine ⟨(hstart.trans hextends).numbersOn, hextends.numbersOn, ?_, ?_⟩
  · rintro e rfl
    rcases submit_cases h with ⟨answer, hreply, _⟩ | ⟨_, _, hsame⟩
    · cases hreply
    · exact hsame
  · intro hmerges
    rcases submit_cases h with ⟨answer, _, hrun⟩ | ⟨_, _, hsame⟩
    · obtain ⟨script, d, table, hparse, hscript, _, rfl⟩ := Graph.runText_ok hrun
      have hread : script.isReadOnly = true := by
        simpa [Script.isReadOnly] using hmerges script hparse
      rw [Script.neededAccess, hread] at hscript
      rw [Script.run_read hscript]
    · exact hsame

theorem submit_answered {statement : String} {stats : List String}
    (h : (g.runText statement).toOption.map (fun result => result.1.stats) = some stats) :
    ∃ answer g', memoryStore.submit statement g = (.answered answer, g') ∧
      answer.stats = stats := by
  unfold memoryStore
  dsimp only
  split
  case h_1 answer next hrun =>
    rw [hrun] at h
    exact ⟨answer, next, rfl, Option.some.inj h⟩
  case h_2 hrun =>
    rw [hrun] at h
    cases h

theorem submit_failed {statement : String} (h : (g.runText statement).toOption.isNone = true) :
    ∃ e, memoryStore.submit statement g = (.failed e, g) := by
  unfold memoryStore
  dsimp only
  split
  case h_1 hrun =>
    rw [hrun] at h
    cases h
  case h_2 e _ => exact ⟨e, rfl⟩

/-- The last merge takes a relationship for a node, after the first two have made both. -/
def lateFault : String :=
  "MERGE (a:Post \x7bid: 2\x7d) MERGE (b:User \x7bid: 3\x7d)-[r:user]->(a) MERGE (r)"

theorem late_fault_adds_nothing :
    ∃ g g' e, memoryStore.after .empty ["MERGE (a:Post \x7bid: 1\x7d)"] = g ∧
      memoryStore.submit lateFault g = (.failed e, g') ∧ g.nodeCount = 1 ∧ g' = g := by
  obtain ⟨g, hg, hcount, hfault⟩ :
      ∃ g, memoryStore.after .empty ["MERGE (a:Post \x7bid: 1\x7d)"] = g ∧ g.nodeCount = 1 ∧
        (g.runText lateFault).toOption.isNone = true :=
    ⟨_, rfl, by decide +kernel, by decide +kernel⟩
  obtain ⟨e, he⟩ := submit_failed hfault
  exact ⟨g, g, e, hg, he, hcount, (statement_only_adds .empty _ hg he).2.2.1 e rfl⟩

end FieldGraph
