import FieldGraph.Proofs.Statement.Comparable
import FieldGraph.Proofs.Store.Growth

/-!
# Graphs without not-a-number

No text is read as a pattern that asks for not-a-number, and a merge stores the values of its
pattern. So no statement puts not-a-number into a graph, at whatever depth of a list.
-/
namespace FieldGraph

/-- No node stores not-a-number, at whatever depth. -/
def Graph.NaNFree (g : Graph) : Prop :=
  ∀ n ∈ g.nodes, ∀ key value, n.properties.get? key = some value → ¬value.HasNaN

variable {access : Access} {g g' : Graph} {d e : Draft} {s t : Progress} {row row' : Row} {id : Nat}

theorem nanFree_empty : Graph.empty.NaNFree := by
  intro n hn
  exact absurd hn (Array.not_mem_empty n)

theorem NodePattern.Comparable.nanFree {p : NodePattern} (h : p.Comparable) {key : String}
    {value : Value} (hget : p.propertyMap.get? key = some value) : ¬value.HasNaN := by
  intro hnan
  have hsame := h.same_of_get? hget
  rw [hnan.not_same] at hsame
  cases hsame

theorem Graph.NaNFree.addNode (hg : g.NaNFree) (label : Option String) {properties : PropertyMap}
    (h : ∀ key value, properties.get? key = some value → ¬value.HasNaN) :
    (g.addNode label properties).NaNFree := by
  intro n hn
  rcases Array.mem_push.mp hn with hn | rfl
  · exact hg n hn
  · exact h

theorem NodePattern.create_nanFree {p : NodePattern} (hp : p.Comparable) (hd : d.graph.NaNFree)
    (h : p.create d row = .ok (e, row', id)) : e.graph.NaNFree := by
  rcases create_cases h with ⟨_, _, rfl, _⟩ | ⟨_, _, rfl, _⟩
  · exact hd
  · exact hd.addNode p.label fun _ _ => hp.nanFree

theorem Pattern.create_nanFree {p : Pattern} (hp : p.Comparable) (hd : d.graph.NaNFree)
    (h : p.create d row = .ok (e, row')) : e.graph.NaNFree := by
  obtain ⟨hstartComparable, hstopComparable⟩ := hp
  cases created h with
  | node hstart => exact NodePattern.create_nanFree hstartComparable hd hstart
  | hop hstart hstop _ _ hadd =>
    have hfirst := NodePattern.create_nanFree hstartComparable hd hstart
    have hboth := NodePattern.create_nanFree (hstopComparable _ rfl) hfirst hstop
    intro n hn
    rw [(Draft.addEdge_ok hadd).1] at hn
    exact hboth n hn

theorem mergeRow_nanFree {p : Pattern} {rows : List Row} (hp : p.Comparable)
    (hd : d.graph.NaNFree) (h : mergeRow access p d row = .ok (e, rows)) : e.graph.NaNFree := by
  cases access with
  | read =>
    rw [mergeRow_read h]
    exact hd
  | write =>
    rcases mergeRow_cases h with ⟨rfl, _, _⟩ | ⟨_, _, hcreate, _⟩
    · exact hd
    · exact Pattern.create_nanFree hp hd hcreate

theorem mergeRows_nanFree {p : Pattern} {rows found : List Row} (hp : p.Comparable)
    (hd : d.graph.NaNFree) (h : mergeRows access p d rows = .ok (e, found)) : e.graph.NaNFree := by
  induction rows generalizing d found with
  | nil =>
    cases h
    exact hd
  | cons row rows ih =>
    obtain ⟨⟨d₁, found₁⟩, hrow, h⟩ := bind_eq_ok.mp h
    obtain ⟨⟨d₂, found₂⟩, hrest, h⟩ := bind_eq_ok.mp h
    cases h
    exact ih (mergeRow_nanFree hp hd hrow) hrest

theorem Clause.run_nanFree {c : Clause} (hc : ∀ p, c = .merge p → p.Comparable)
    (hs : s.draft.graph.NaNFree) (h : c.run access s = .ok t) : t.draft.graph.NaNFree := by
  cases c with
  | find p filter =>
    obtain ⟨rows, _, h⟩ := bind_eq_ok.mp h
    cases h
    exact hs
  | merge p =>
    obtain ⟨⟨d, rows⟩, hrows, h⟩ := bind_eq_ok.mp h
    cases h
    exact mergeRows_nanFree (hc p rfl) hs hrows
  | result items =>
    obtain ⟨rows, _, h⟩ := bind_eq_ok.mp h
    cases h
    exact hs

theorem runClauses_nanFree {query : Query} (hquery : ∀ p, .merge p ∈ query → p.Comparable)
    (hs : s.draft.graph.NaNFree) (h : runClauses access s query = .ok t) :
    t.draft.graph.NaNFree := by
  induction query generalizing s with
  | nil =>
    cases h
    exact hs
  | cons c query ih =>
    obtain ⟨u, hfirst, hrest⟩ := bind_eq_ok.mp h
    have hc : ∀ p, c = .merge p → p.Comparable := by
      rintro p rfl
      exact hquery p List.mem_cons_self
    exact ih (fun p hp => hquery p (List.mem_cons_of_mem _ hp)) (Clause.run_nanFree hc hs hfirst)
      hrest

theorem runQueries_nanFree {script : Script} {table found : QueryTable}
    (hscript : ∀ query ∈ script, ∀ p, .merge p ∈ query → p.Comparable) (hd : d.graph.NaNFree)
    (h : runQueries access d table script = .ok (e, found)) : e.graph.NaNFree := by
  induction script generalizing d table with
  | nil =>
    cases h
    exact hd
  | cons query script ih =>
    obtain ⟨⟨next, last⟩, hquery, hrest⟩ := bind_eq_ok.mp h
    have hnext : next.graph.NaNFree := by
      unfold Query.run at hquery
      split at hquery
      · obtain ⟨s, hrun, hquery⟩ := bind_eq_ok.mp hquery
        cases hquery
        exact runClauses_nanFree (hscript query List.mem_cons_self) hd hrun
      · cases hquery
    exact ih (fun q hq => hscript q (List.mem_cons_of_mem _ hq))
      (d := ⟨next.graph, d.counters.add next.counters⟩) hnext hrest

theorem submit_nanFree (hg : g.NaNFree) {statement : String} {reply : Reply}
    (h : memoryStore.submit statement g = (reply, g')) : g'.NaNFree := by
  rcases submit_cases h with ⟨answer, _, hrun⟩ | ⟨_, _, rfl⟩
  · obtain ⟨script, d, table, hparse, hscript, _, rfl⟩ := Graph.runText_ok hrun
    apply runQueries_nanFree ?_ hg hscript
    intro query hquery p hp
    exact Script.comparable_of_parse hparse hquery hp
  · exact hg

/-- Whatever statements a store runs, they store no not-a-number. -/
theorem after_nanFree (hg : g.NaNFree) (statements : List String) :
    (memoryStore.after g statements).NaNFree := by
  induction statements generalizing g with
  | nil => exact hg
  | cons statement statements ih =>
    have hfirst : (memoryStore.submit statement g).2.NaNFree := submit_nanFree hg rfl
    exact ih hfirst

end FieldGraph
