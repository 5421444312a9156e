import FieldGraph.Proofs.Search.Results
import FieldGraph.Proofs.Statement.Grouping
import FieldGraph.Proofs.Store.Growth

/-!
# What a store reports

The lines of an answer say how much the statement added to the graph, and asking for the number of
nodes yields the sum of what all answers have said.
-/
namespace FieldGraph

variable {g g' : Graph}

def afterName (name line : String) : Option (List Char) :=
  line.toList.dropPrefix? (name ++ ": ").toList

/-- The number that the lines of an answer give under a name; a name without a line has zero. -/
def reported (name : String) (lines : List String) : Nat :=
  Numeral.ofDigits ((lines.findSome? (afterName name)).getD [])

def counterLine (counter : String × Nat) : String := counter.1 ++ ": " ++ natText counter.2

/-- Lines that begin with different characters are not mistaken for each other. -/
def Apart (name other : String) : Prop := (name ++ ": ").toList.head? ≠ (other ++ ": ").toList.head?

theorem toList_counterLine (counter : String × Nat) :
    (counterLine counter).toList = (counter.1 ++ ": ").toList ++ Nat.toDigits 10 counter.2 := by
  rw [counterLine, String.toList_append, natText, String.toList_ofList]

theorem afterName_self (name : String) (count : Nat) :
    afterName name (counterLine (name, count)) = some (Nat.toDigits 10 count) := by
  rw [afterName, toList_counterLine, List.dropPrefix?_eq_some_iff]
  exact ⟨_, rfl, by simp⟩

theorem afterName_other {name : String} {counter : String × Nat} (h : Apart name counter.1) :
    afterName name (counterLine counter) = none := by
  rw [afterName, toList_counterLine]
  cases hname : (name ++ ": ").toList with
  | nil => simp at hname
  | cons c cs =>
    cases hother : (counter.1 ++ ": ").toList with
    | nil => simp at hother
    | cons d ds =>
      have hne : d ≠ c := by
        intro heq
        rw [Apart, hname, hother, heq] at h
        exact h rfl
      simp [List.dropPrefix?, hne]

theorem reported_other {name : String} {counters : List (String × Nat)}
    (h : ∀ counter ∈ counters, Apart name counter.1) :
    reported name ((counters.filter (0 < ·.2)).map counterLine) = 0 := by
  have hnone : ((counters.filter (0 < ·.2)).map counterLine).findSome? (afterName name) = none := by
    rw [List.findSome?_eq_none_iff]
    intro line hline
    obtain ⟨counter, hcounter, rfl⟩ := List.mem_map.mp hline
    exact afterName_other (h counter (List.mem_of_mem_filter hcounter))
  rw [reported, hnone]
  rfl

/-- A counter is read back from the lines, also if it is zero and has no line. -/
theorem reported_of_mem {name : String} {count : Nat} {counters : List (String × Nat)}
    (hapart : counters.Pairwise fun a b => Apart a.1 b.1 ∧ Apart b.1 a.1)
    (h : (name, count) ∈ counters) :
    reported name ((counters.filter (0 < ·.2)).map counterLine) = count := by
  induction counters with
  | nil => cases h
  | cons counter counters ih =>
    obtain ⟨hfirst, hrest⟩ := List.pairwise_cons.mp hapart
    rcases List.mem_cons.mp h with rfl | h
    · by_cases hpos : 0 < count
      · simp only [List.filter_cons, hpos, decide_true, if_true, List.map_cons]
        rw [reported, List.findSome?_cons, afterName_self]
        exact Numeral.ofDigits_toDigits count
      · rw [List.filter_cons, if_neg (by simpa using hpos),
          reported_other fun other hother => (hfirst other hother).1]
        omega
    · by_cases hpos : 0 < counter.2
      · simp only [List.filter_cons, hpos, decide_true, if_true, List.map_cons]
        rw [reported, List.findSome?_cons, afterName_other (hfirst _ h).2]
        exact ih hrest h
      · rw [List.filter_cons, if_neg (by simpa using hpos)]
        exact ih hrest h

theorem Counters.reported_lines (c : Counters) :
    reported "Nodes created" c.lines = c.nodesCreated ∧
      reported "Properties set" c.lines = c.propertiesSet ∧
      reported "Relationships created" c.lines = c.relationshipsCreated := by
  have hapart : [("Nodes created", c.nodesCreated), ("Properties set", c.propertiesSet),
      ("Relationships created", c.relationshipsCreated)].Pairwise
      fun a b => Apart a.1 b.1 ∧ Apart b.1 a.1 := by
    simp [Apart]
  refine ⟨?_, ?_, ?_⟩
  · exact reported_of_mem hapart (by simp)
  · exact reported_of_mem hapart (by simp)
  · exact reported_of_mem hapart (by simp)

def Graph.nodesSince (g' g : Graph) : List Node := g'.nodes.toList.drop g.nodeCount

theorem Graph.Extends.propertyCount (h : g.Extends g') :
    g'.propertyCount =
      g.propertyCount + ((g'.nodesSince g).map fun n => n.properties.size).sum := by
  obtain ⟨added, hadded⟩ := h.nodes
  have hsince : g'.nodesSince g = added := by
    rw [Graph.nodesSince, ← hadded, Graph.nodeCount, ← Array.length_toList, List.drop_left]
  rw [hsince, Graph.propertyCount, ← hadded, List.map_append, List.sum_append]
  rfl

theorem submit_counts {statement : String} {answer : Table}
    (h : memoryStore.submit statement g = (.answered answer, g')) :
    g'.nodeCount = g.nodeCount + reported "Nodes created" answer.stats ∧
      g'.edgeCount = g.edgeCount + reported "Relationships created" answer.stats ∧
      ((g'.nodesSince g).map fun n => n.properties.size).sum =
        reported "Properties set" answer.stats := by
  rcases submit_cases h with ⟨_, hanswer, hrun⟩ | ⟨e, hfailed, _⟩
  · cases hanswer
    obtain ⟨script, d, table, _, hscript, rfl, rfl⟩ := Graph.runText_ok hrun
    have hgrows := Script.run_grows hscript
    have hnodes := hgrows.nodes
    have hedges := hgrows.edges
    have hproperties := hgrows.properties
    have hsince := hgrows.graph.propertyCount
    obtain ⟨hcreated, hset, hlinked⟩ := d.counters.reported_lines
    simp only [QueryTable.answer, hcreated, hset, hlinked, Counters.zero] at *
    refine ⟨?_, ?_, ?_⟩
    · omega
    · omega
    · omega
  · cases hfailed

def Store.replies {σ : Type} (s : Store σ) (state : σ) : List String → List Reply
  | [] => []
  | statement :: rest =>
    (s.submit statement state).1 :: s.replies (s.submit statement state).2 rest

def Reply.nodesCreated : Reply → Nat
  | .answered answer => reported "Nodes created" answer.stats
  | .failed _ => 0
  | .unanswered => 0

theorem submit_nodesCreated (g : Graph) (statement : String) :
    (memoryStore.submit statement g).2.nodeCount =
      g.nodeCount + (memoryStore.submit statement g).1.nodesCreated := by
  obtain ⟨reply, g', hsubmit⟩ : ∃ reply g', memoryStore.submit statement g = (reply, g') :=
    ⟨_, _, rfl⟩
  rw [hsubmit]
  rcases submit_cases hsubmit with ⟨answer, rfl, _⟩ | ⟨e, rfl, rfl⟩
  · exact (submit_counts hsubmit).1
  · rfl

theorem after_nodeCount (g : Graph) (statements : List String) :
    (memoryStore.after g statements).nodeCount =
      g.nodeCount + ((memoryStore.replies g statements).map Reply.nodesCreated).sum := by
  induction statements generalizing g with
  | nil => rfl
  | cons statement statements ih =>
    have hfirst := submit_nodesCreated g statement
    have hrest := ih (memoryStore.submit statement g).2
    rw [Store.after, Store.replies, List.map_cons, List.sum_cons, hrest, hfirst]
    omega

def countItems : List ReturnItem := [⟨.count searchVariable, "count(n)"⟩]

theorem parse_countStatement :
    Script.parse countStatement = .ok [[.find Search.pattern [], .result countItems]] := by
  have hfront : Lexes "MATCH (n) ".toList "RETURN count(n)".toList
      (findTokens Search.pattern []) := Lexes.matchOpen _
  have htail : Lexer.lexFrom (byteLength "MATCH (n) ".toList) 0 "RETURN count(n)".toList =
      .ok [⟨.keyword .returnWord, 10⟩, ⟨.identifier "count", 17⟩, ⟨.openParen, 22⟩,
        ⟨.identifier "n", 23⟩, ⟨.closeParen, 24⟩] := rfl
  refine Script.parse_of_find rfl hfront ?_ (by simp) htail ?_ fun limit => rfl
  · simp [Pattern.Writable, NodePattern.Writable, Search.pattern]
  · simp [EndsClause, clauseEnds]

theorem findRows_all (g : Graph) :
    findRows g Search.pattern [] [] = .ok (g.nodes.toList.map searchRow) := by
  have hfind := findRows_node g none []
  rwa [show NodePattern.admits ⟨searchVariable, none, []⟩ = Search.pattern.start.admits from rfl,
    Search.filter_admits] at hfind

theorem project_count (g : Graph) (nodes : List Node) :
    project g countItems (nodes.map searchRow) = .ok [[.int (Int64.ofNat nodes.length)]] := by
  have hcounts : ∀ item ∈ countItems, item.isCount = true := by
    simp [countItems, ReturnItem.isCount]
  have hrows : ∀ row ∈ nodes.map searchRow,
      collect (ReturnItem.eval g row) countItems = .ok [] := by
    intro row hrow
    obtain ⟨n, _, rfl⟩ := List.mem_map.mp hrow
    simp [countItems, collect, ReturnItem.eval, get_searchRow, bind, Except.bind, pure,
      Except.pure]
  rw [project_of_counts rfl hcounts hrows, List.length_map]
  rfl

theorem runText_countStatement (g : Graph) :
    g.runText countStatement =
      .ok (⟨["count(n)"], [[.int (Int64.ofNat g.nodeCount)]], []⟩, g) := by
  have hrows : collect (findRows g Search.pattern []) [[]] =
      .ok (g.nodes.toList.map searchRow) := by
    rw [collect, findRows_all]
    simp [collect, bind, Except.bind, pure, Except.pure]
  have hrun : Script.run .read g [[.find Search.pattern [], .result countItems]] =
      .ok (⟨g, .zero⟩, ⟨["count(n)"], [[.int (Int64.ofNat g.nodeCount)]]⟩) := by
    simp only [Script.run, runQueries, Query.run, runClauses, Clause.run, hrows, project_count,
      Array.length_toList, bind, Except.bind, pure, Except.pure]
    rfl
  have hread : Script.isReadOnly [[.find Search.pattern [], .result countItems]] = true := rfl
  simp only [Graph.runText, parse_countStatement, hread, if_true, hrun]
  rfl

/-- The number of nodes as the store tells it, which is a 64-bit integer. -/
theorem countNodes_eq (hsize : g.nodeCount < 0x8000000000000000) :
    memoryStore.countNodes g = (.ok g.nodeCount, g) := by
  have hexecute : memoryStore.execute countStatement g =
      (.ok ⟨["count(n)"], [[.int (Int64.ofNat g.nodeCount)]], []⟩, g) := by
    simp only [Store.execute, memoryStore, runText_countStatement]
  have hcount : Store.countOf? ⟨["count(n)"], [[.int (Int64.ofNat g.nodeCount)]], []⟩ =
      some g.nodeCount := by
    show (if 0 ≤ (Int64.ofNat g.nodeCount).toInt then
      some (Int64.ofNat g.nodeCount).toInt.toNat else none) = some g.nodeCount
    rw [toInt_ofNat_of_lt hsize, if_pos (Int.natCast_nonneg _), Int.toNat_natCast]
  rw [Store.countNodes]
  refine (storeM_bind_ok hexecute).trans ?_
  rw [hcount]
  rfl

/-- Every answer of a store that started empty reports exactly what its statement added, and the
number of nodes is the sum of what the answers before have reported. The store counts in 64-bit
integers, which are enough for any graph held in memory. -/
theorem reported_counts_exact {earlier : List String}
    (hreached : memoryStore.after .empty earlier = g) :
    (∀ statement answer g', memoryStore.submit statement g = (.answered answer, g') →
      g'.nodeCount = g.nodeCount + reported "Nodes created" answer.stats ∧
      g'.edgeCount = g.edgeCount + reported "Relationships created" answer.stats ∧
      ((g'.nodesSince g).map fun n => n.properties.size).sum =
        reported "Properties set" answer.stats) ∧
    (g.nodeCount < 0x8000000000000000 → memoryStore.countNodes g =
      (.ok ((memoryStore.replies .empty earlier).map Reply.nodesCreated).sum, g)) := by
  constructor
  · intro statement answer g' h
    exact submit_counts h
  · intro hsize
    have hsum : g.nodeCount =
        ((memoryStore.replies .empty earlier).map Reply.nodesCreated).sum := by
      rw [← hreached, after_nodeCount]
      exact Nat.zero_add _
    rw [← hsum]
    exact countNodes_eq hsize

def twoQueries : String :=
  "MERGE (a:Post \x7bid: 2\x7d); MERGE (b:User \x7bid: 3, name: 'Ann', id: 4\x7d)-[:user]->(c)"

theorem two_queries_counted :
    ∃ g answer g', memoryStore.after .empty ["MERGE (a:Post \x7bid: 1, id: 2, x: 3\x7d)"] = g ∧
      memoryStore.submit twoQueries g = (.answered answer, g') ∧
      g'.nodeCount = g.nodeCount + 2 ∧ g'.edgeCount = g.edgeCount + 1 ∧
      ((g'.nodesSince g).map fun n => n.properties.size).sum = 2 ∧
      memoryStore.countNodes g = (.ok 1, g) := by
  obtain ⟨g, hreached, hsize, hsum, hstats⟩ :
      ∃ g, memoryStore.after .empty ["MERGE (a:Post \x7bid: 1, id: 2, x: 3\x7d)"] = g ∧
        g.nodeCount < 0x8000000000000000 ∧
        ((memoryStore.replies .empty ["MERGE (a:Post \x7bid: 1, id: 2, x: 3\x7d)"]).map
          Reply.nodesCreated).sum = 1 ∧
        (g.runText twoQueries).toOption.map (fun result => result.1.stats) =
          some ["Nodes created: 2", "Properties set: 2", "Relationships created: 1"] :=
    ⟨_, rfl, by decide +kernel, by decide +kernel, by decide +kernel⟩
  obtain ⟨answer, g', hsubmit, hanswer⟩ := submit_answered hstats
  obtain ⟨hcounts, htotal⟩ := reported_counts_exact hreached
  obtain ⟨hnodes, hedges, hproperties⟩ := hcounts twoQueries answer g' hsubmit
  rw [hanswer] at hnodes hedges hproperties
  have hcreated : reported "Nodes created"
      ["Nodes created: 2", "Properties set: 2", "Relationships created: 1"] = 2 := by decide
  have hlinked : reported "Relationships created"
      ["Nodes created: 2", "Properties set: 2", "Relationships created: 1"] = 1 := by decide
  have hset : reported "Properties set"
      ["Nodes created: 2", "Properties set: 2", "Relationships created: 1"] = 2 := by decide
  refine ⟨g, answer, g', hreached, hsubmit, hcreated ▸ hnodes, hlinked ▸ hedges,
    hset ▸ hproperties, ?_⟩
  rw [htotal hsize, hsum]

end FieldGraph
