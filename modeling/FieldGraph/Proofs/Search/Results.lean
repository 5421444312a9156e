import FieldGraph.Proofs.Graph.Basic
import FieldGraph.Proofs.Search.Statement
import FieldGraph.Store.Memory

/-!
# The results of a search

A search finds exactly the nodes that satisfy all its predicates, in the order of their numbers.
-/
namespace FieldGraph

theorem occursIn_iff {part text : List Char} : occursIn part text = true ↔ part <:+: text := by
  induction text with
  | nil => simp [occursIn]
  | cons c text ih => simp [occursIn, ih, List.infix_cons_iff]

namespace SearchPredicate

/-- Whether a node satisfies a predicate: its number is the value, or the text of the value occurs
in that of a property which is not null. -/
def HoldsOn (p : SearchPredicate) (n : Node) : Prop :=
  match p.target with
  | .nodeId => ∃ i, p.value = .int i ∧ i.toInt = n.id
  | .property key => ∃ value, n.properties.get? key = some value ∧ value.isNull = false ∧
      p.value.value.text.toList <:+: value.text.toList

instance (p : SearchPredicate) (n : Node) : Decidable (p.HoldsOn n) :=
  match p with
  | ⟨.nodeId, _, .int i⟩ => decidable_of_iff (i.toInt = n.id) (by simp [HoldsOn])
  | ⟨.nodeId, _, .string _⟩ => isFalse (by simp [HoldsOn])
  | ⟨.property key, _, value⟩ =>
    match h : n.properties.get? key with
    | none => isFalse (by simp [HoldsOn, h])
    | some found =>
      decidable_of_iff (found.isNull = false ∧ value.value.text.toList <:+: found.text.toList)
        (by simp [HoldsOn, h])

end SearchPredicate

theorem toInt_ofNat_of_lt {n : Nat} (h : n < 0x8000000000000000) :
    (Int64.ofNat n).toInt = n := by
  have : n < 2 ^ 63 := h
  rw [Int64.toInt_ofNat_of_lt this]

def searchRow (n : Node) : Row := [(searchVariable, .node n.id)]

theorem get_searchRow (n : Node) : (searchRow n).get searchVariable = .ok (.node n.id) := by
  simp [Row.get, Row.get?, searchRow]

theorem eval_searchRow_id (g : Graph) (n : Node) :
    Operand.eval g (searchRow n) (.id searchVariable) = .ok (.int (Int64.ofNat n.id)) := by
  rw [Operand.eval, get_searchRow]
  rfl

section

variable (g : Graph) (label : Option String) (properties : List (String × Value))

theorem matches_node : Pattern.matches ⟨⟨searchVariable, label, properties⟩, none⟩ g [] =
    .ok ((g.nodes.toList.filter
      (NodePattern.admits ⟨searchVariable, label, properties⟩)).map searchRow) := by
  have hcandidates : NodePattern.candidates ⟨searchVariable, label, properties⟩ g [] =
      .ok ((g.nodes.toList.filter
        (NodePattern.admits ⟨searchVariable, label, properties⟩)).map Node.id) := rfl
  rw [Pattern.matches, hcandidates]
  show collect _ (List.map Node.id _) = _
  rw [collect_of_map]
  exact collect_map _ fun n _ => rfl

theorem findRows_node : findRows g ⟨⟨searchVariable, label, properties⟩, none⟩ [] [] =
    .ok ((g.nodes.toList.filter
      (NodePattern.admits ⟨searchVariable, label, properties⟩)).map searchRow) := by
  rw [findRows, matches_node]
  show collect _ (List.map searchRow _) = _
  rw [collect_of_map]
  exact collect_map _ fun n _ => rfl

end

theorem SearchValue.isNull_value (v : SearchValue) : v.value.isNull = false := by
  cases v <;> rfl

theorem SearchPredicate.Parsed.passes {p : SearchPredicate} (hp : p.Parsed) {g : Graph} {n : Node}
    (hn : n ∈ g.nodes.toList) (hid : n.id < 0x8000000000000000) :
    p.comparison.passes g (searchRow n) = .ok (decide (p.HoldsOn n)) := by
  cases hp with
  | nodeId value =>
    have hnumber : (Value.int (Int64.ofNat n.id)).isNull = false := rfl
    have hpasses : (SearchPredicate.comparison ⟨.nodeId, .equals, value⟩).passes g (searchRow n) =
        .ok ((Value.int (Int64.ofNat n.id)).equals value.value) := by
      simp [Comparison.passes, SearchPredicate.comparison, SearchTarget.operand, Operand.eval,
        get_searchRow, SearchValue.isNull_value, hnumber, SearchComparator.op,
        ComparisonOp.holds, bind, Except.bind, pure, Except.pure]
    rw [hpasses, Except.ok.injEq, Bool.eq_iff_iff, decide_eq_true_iff]
    cases value with
    | int i =>
      have hnum := toInt_ofNat_of_lt hid
      simp only [SearchValue.value, Value.equals, Value.same, beq_iff_eq,
        SearchPredicate.HoldsOn, SearchValue.int.injEq]
      constructor
      · rintro rfl
        exact ⟨_, rfl, hnum⟩
      · rintro ⟨j, rfl, hj⟩
        exact Int64.toInt_inj.mp (hnum.trans hj.symm)
    | string s => simp [SearchValue.value, Value.equals, Value.same, SearchPredicate.HoldsOn]
  | @property key hkey value =>
    have hpasses :
        (SearchPredicate.comparison ⟨.property key, .contains, value⟩).passes g (searchRow n) =
          .ok (!((n.properties.get? key).getD .null).isNull &&
            occursIn value.value.text.toList ((n.properties.get? key).getD .null).text.toList) := by
      simp [Comparison.passes, SearchPredicate.comparison, SearchTarget.operand, Operand.eval,
        get_searchRow, SearchValue.isNull_value, SearchComparator.op, ComparisonOp.holds,
        Graph.mem_nodes_iff.mp hn, bind, Except.bind, pure, Except.pure]
    rw [hpasses, Except.ok.injEq, Bool.eq_iff_iff, decide_eq_true_iff]
    simp only [SearchPredicate.HoldsOn]
    cases hget : n.properties.get? key with
    | none => simp [Value.isNull]
    | some stored => simp [occursIn_iff]

theorem passesAll_comparisons {g : Graph} {n : Node} (hn : n ∈ g.nodes.toList)
    (hid : n.id < 0x8000000000000000) {predicates : List SearchPredicate}
    (hparsed : ∀ p ∈ predicates, p.Parsed) :
    passesAll g (searchRow n) (predicates.map SearchPredicate.comparison) =
      .ok (decide (∀ p ∈ predicates, p.HoldsOn n)) := by
  induction predicates with
  | nil => simp [passesAll]
  | cons p predicates ih =>
    have hrest := ih fun q hq => hparsed q (List.mem_cons_of_mem _ hq)
    rw [List.map_cons, passesAll, (hparsed p List.mem_cons_self).passes hn hid]
    by_cases hp : p.HoldsOn n
    · simp [bind, Except.bind, hp, hrest]
    · simp [bind, Except.bind, pure, Except.pure, hp]

theorem Graph.findNodes_empty (g : Graph) :
    g.findNodes none .empty = g.nodes.toList.map Node.id := by
  simp [Graph.findNodes, PropertyMap.includes, SortedMap.empty]

namespace Search

def found (s : Search) (g : Graph) : List Node :=
  g.nodes.toList.filter fun n => ∀ p ∈ s.predicates, p.HoldsOn n

theorem mem_found {s : Search} {g : Graph} {n : Node} :
    n ∈ s.found g ↔ n ∈ g.nodes.toList ∧ ∀ p ∈ s.predicates, p.HoldsOn n := by
  simp [found]

theorem candidates_start (g : Graph) :
    pattern.start.candidates g [] = .ok (g.nodes.toList.map Node.id) := by
  rw [← g.findNodes_empty]
  rfl

theorem filter_admits (g : Graph) :
    g.nodes.toList.filter pattern.start.admits = g.nodes.toList :=
  List.filter_eq_self.mpr fun _ _ => rfl

theorem matches_pattern (g : Graph) :
    pattern.matches g [] = .ok (g.nodes.toList.map searchRow) := by
  have hmatches := matches_node g none []
  rwa [show NodePattern.admits ⟨searchVariable, none, []⟩ = pattern.start.admits from rfl,
    filter_admits] at hmatches

theorem id_lt_of_mem {g : Graph} (hsize : g.nodeCount ≤ 0x8000000000000000) {n : Node}
    (hn : n ∈ g.nodes.toList) : n.id < 0x8000000000000000 := by
  have := Graph.node?_lt (Graph.mem_nodes_iff.mp hn)
  omega

theorem findRows_found {s : Search} {g : Graph} (hparsed : ∀ p ∈ s.predicates, p.Parsed)
    (hsize : g.nodeCount ≤ 0x8000000000000000) :
    findRows g pattern s.comparisons [] = .ok ((s.found g).map searchRow) := by
  have hrows : ∀ n ∈ g.nodes.toList,
      (do return if ← passesAll g (searchRow n) s.comparisons then [searchRow n] else []) =
        (.ok (if decide (∀ p ∈ s.predicates, p.HoldsOn n) then [searchRow n] else []) :
          Evaluation (List Row)) := by
    intro n hn
    rw [comparisons, passesAll_comparisons hn (id_lt_of_mem hsize hn) hparsed]
    rfl
  have hfind : findRows g pattern s.comparisons [] =
      collect (fun r => do return if ← passesAll g r s.comparisons then [r] else [])
        (g.nodes.toList.map searchRow) := by
    rw [findRows, matches_pattern]
    rfl
  rw [hfind, collect_of_map, collect_filter hrows]
  rfl

def cells (n : Node) : List Value :=
  [.int (Int64.ofNat n.id), .list (n.label.toList.map .string)]

theorem eval_resultItems {g : Graph} {n : Node} (hn : n ∈ g.nodes.toList) :
    collect (ReturnItem.eval g (searchRow n)) resultItems = .ok (cells n) := by
  simp [resultItems, collect, ReturnItem.eval, Operand.eval, get_searchRow,
    Graph.mem_nodes_iff.mp hn, cells, bind, Except.bind, pure, Except.pure]

theorem project_found (s : Search) (g : Graph) :
    project g resultItems ((s.found g).map searchRow) = .ok ((s.found g).map cells) := by
  have hcells := mapM_ok (f := fun n => collect (ReturnItem.eval g (searchRow n)) resultItems)
    (g := cells) (s.found g) fun n hn => eval_resultItems (mem_found.mp hn).1
  rw [project, if_neg (by decide), List.mapM_map]
  exact hcells

theorem run_query {s : Search} {g : Graph} (hparsed : ∀ p ∈ s.predicates, p.Parsed)
    (hsize : g.nodeCount ≤ 0x8000000000000000) :
    Script.run .read g [s.query] =
      .ok (⟨g, .zero⟩, ⟨resultItems.map ReturnItem.column, (s.found g).map cells⟩) := by
  have hfind : collect (findRows g pattern s.comparisons) [[]] =
      .ok ((s.found g).map searchRow) := by
    rw [collect, findRows_found hparsed hsize]
    simp [collect, bind, Except.bind, pure, Except.pure]
  simp only [Script.run, runQueries, Query.run, query, runClauses, Clause.run,
    hfind, project_found, bind, Except.bind, pure, Except.pure]
  rfl

theorem foundNode?_cells {n : Node} (hid : n.id < 0x8000000000000000) :
    Resolver.foundNode? (cells n) = some ⟨n.id, n.label⟩ := by
  have hnum := toInt_ofNat_of_lt hid
  have hlabel : Resolver.labelOf? (.list (n.label.toList.map .string)) = n.label := by
    cases n.label <;> rfl
  simp [Resolver.foundNode?, cells, Resolver.nodeOf?, Value.int?, hnum, hlabel]

def references (s : Search) (g : Graph) : List NodeRef :=
  (s.found g).map fun n => ⟨n.id, n.label⟩

theorem read_references {s : Search} {g : Graph} (hsize : g.nodeCount ≤ 0x8000000000000000) :
    ((s.found g).map cells).filterMap Resolver.foundNode? = s.references g := by
  rw [List.filterMap_map, references, ← List.filterMap_eq_map]
  refine List.filterMap_congr fun n hn => ?_
  exact foundNode?_cells (id_lt_of_mem hsize (mem_found.mp hn).1)

theorem references_ascending (s : Search) (g : Graph) :
    (s.references g).Pairwise fun a b => a.id < b.id := by
  rw [references, List.pairwise_map]
  exact g.ids_ascending.sublist List.filter_sublist

end Search

/-- Resolving a search on the store in memory yields what it finds and leaves the graph. -/
theorem resolve_search {arguments : Arguments} {text : String} (source : Option NodeRef)
    {g : Graph} (harguments : Resolver.keywords arguments = .ok text)
    (hsize : g.nodeCount ≤ 0x8000000000000000)
    (hvalues : ∀ p ∈ (Search.parse text).predicates, p.value ≠ .int Int64.minValue) :
    Resolver.resolve .search memoryStore source arguments g =
      (.ok (.references ((Search.parse text).references g)), g) := by
  have hparsed : ∀ p ∈ (Search.parse text).predicates, p.Parsed := fun p hp =>
    parsed_of_mem_parse hp
  have htext : g.runText (Search.parse text).statement =
      .ok (⟨Search.resultItems.map ReturnItem.column,
        ((Search.parse text).found g).map Search.cells, []⟩, g) := by
    have hread : Script.isReadOnly [(Search.parse text).query] = true := rfl
    simp only [Graph.runText, Search.parse_statement hparsed hvalues, hread, if_true,
      Search.run_query hparsed hsize]
    rfl
  have hexecute : memoryStore.execute (Search.parse text).statement g =
      (.ok ⟨Search.resultItems.map ReturnItem.column,
        ((Search.parse text).found g).map Search.cells, []⟩, g) := by
    simp only [Store.execute, memoryStore, htext]
  rw [Resolver.resolve, Search.resolver_statement source harguments]
  refine (storeM_bind_ok hexecute).trans ?_
  rw [← Search.read_references hsize]
  rfl

/-- No search text can add, remove or change a clause of the statement: it can be read exactly if
the least integer is not searched for, and then it asks for the nodes that satisfy the predicates.
Node numbers are compared as 64-bit integers, which are enough for any graph held in memory. -/
theorem search_finds_exactly {arguments : Arguments} {text : String} (source : Option NodeRef)
    (harguments : Resolver.keywords arguments = .ok text) :
    ∃ statement, Resolver.statement .search source arguments = .ok (some statement) ∧
      ((∃ script, Script.parse statement = .ok script) ↔
        ∀ p ∈ (Search.parse text).predicates, p.value ≠ .int Int64.minValue) ∧
      ∀ script, Script.parse statement = .ok script →
        script = [(Search.parse text).query] ∧
        ∀ g : Graph, g.nodeCount ≤ 0x8000000000000000 →
          ∃ refs, Resolver.resolve .search memoryStore source arguments g =
              (.ok (.references refs), g) ∧
            refs.Pairwise (fun a b => a.id < b.id) ∧
            ∀ ref, ref ∈ refs ↔ ∃ n ∈ g.nodes,
              (∀ p ∈ (Search.parse text).predicates, p.HoldsOn n) ∧ ref = ⟨n.id, n.label⟩ := by
  have hparsed : ∀ p ∈ (Search.parse text).predicates, p.Parsed := fun p hp =>
    parsed_of_mem_parse hp
  refine ⟨_, Search.resolver_statement source harguments, ?_⟩
  by_cases hvalues : ∀ p ∈ (Search.parse text).predicates, p.value ≠ .int Int64.minValue
  · have hparse := Search.parse_statement hparsed hvalues
    refine ⟨⟨fun _ => hvalues, fun _ => ⟨_, hparse⟩⟩, fun script hscript => ?_⟩
    rw [hparse] at hscript
    refine ⟨(Except.ok.inj hscript).symm, fun g hsize => ?_⟩
    refine ⟨_, resolve_search source harguments hsize hvalues,
      Search.references_ascending _ g, fun ref => ?_⟩
    simp only [Search.references, List.mem_map, Search.mem_found, Array.mem_toList_iff]
    constructor
    · rintro ⟨n, ⟨hn, hholds⟩, rfl⟩
      exact ⟨n, hn, hholds, rfl⟩
    · rintro ⟨n, hn, hholds, rfl⟩
      exact ⟨n, ⟨hn, hholds⟩, rfl⟩
  · have hbad : ∃ p ∈ (Search.parse text).predicates, p.value = .int Int64.minValue := by
      simpa using hvalues
    obtain ⟨e, he⟩ := Search.parse_statement_fault hparsed hbad
    rw [he]
    refine ⟨⟨?_, fun hall => absurd hall hvalues⟩, ?_⟩
    · rintro ⟨script, hscript⟩
      cases hscript
    · intro script hscript
      cases hscript

def userGraph : Graph := Graph.empty.addNode (some "User") (.ofList [("name", .string "Ann Lee")])

theorem search_finds_user :
    ∃ refs, Resolver.resolve .search memoryStore none [("keywords", .string "name:Ann")] userGraph =
      (.ok (.references refs), userGraph) ∧ ⟨0, some "User"⟩ ∈ refs := by
  have hpredicates : (Search.parse "name:Ann").predicates =
      [⟨.property "name", .contains, .string "Ann"⟩] := by decide +kernel
  obtain ⟨statement, _, hread, hfound⟩ := @search_finds_exactly
    [("keywords", .string "name:Ann")] "name:Ann" none rfl
  obtain ⟨script, hscript⟩ := hread.mpr (by simp [hpredicates])
  obtain ⟨refs, hresolve, _, hmem⟩ := (hfound script hscript).2 userGraph (by decide)
  refine ⟨refs, hresolve, (hmem _).mpr ⟨⟨0, some "User", .ofList [("name", .string "Ann Lee")]⟩,
    by simp [userGraph, Graph.addNode, Graph.empty], ?_, rfl⟩⟩
  rw [hpredicates]
  simp only [List.mem_singleton, forall_eq, SearchPredicate.HoldsOn]
  exact ⟨_, rfl, rfl, by decide⟩

end FieldGraph
