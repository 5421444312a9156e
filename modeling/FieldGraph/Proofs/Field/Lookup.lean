import FieldGraph.Proofs.Field.Statements
import FieldGraph.Proofs.Statement.Rows

/-!
# Fields looked up in the graph

Resolving a field goes through the text of a statement, which is read again and run over all nodes.
On the store in memory the outcome is what the graph itself has: a stored property, the neighbours
of one node, or the nodes of one label.
-/
namespace FieldGraph

namespace Graph

variable {g : Graph} {id : Nat}

def labelled (g : Graph) (id : Nat) (label : String) : Bool :=
  (g.node? id).any (·.hasLabel label)

/-- The neighbours of a node that have the label, if one is given. -/
def related (g : Graph) (id : Nat) (direction : Direction) (edgeType targetLabel : Option String) :
    List (Nat × Nat) :=
  (g.neighbors id direction edgeType).filter fun hop => targetLabel.all (g.labelled hop.2)

theorem leaves_lt {e : Edge} (he : e ∈ g.edges) {direction : Direction}
    (h : e.leaves id direction = true) : id < g.nodeCount ∧ e.otherEnd id < g.nodeCount := by
  obtain ⟨hsource, htarget⟩ := g.endpoints e he
  have hid : id < g.nodeCount := by
    cases direction with
    | outgoing => exact beq_iff_eq.mp h ▸ hsource
    | incoming => exact beq_iff_eq.mp h ▸ htarget
    | both =>
      rcases Bool.or_eq_true_iff.mp h with h | h
      · exact beq_iff_eq.mp h ▸ hsource
      · exact beq_iff_eq.mp h ▸ htarget
  refine ⟨hid, ?_⟩
  unfold Edge.otherEnd
  split
  · exact htarget
  · exact hsource

theorem neighbor_lt {direction : Direction} {edgeType : Option String} {hop : Nat × Nat}
    (h : hop ∈ g.neighbors id direction edgeType) : id < g.nodeCount ∧ hop.2 < g.nodeCount := by
  obtain ⟨e, he, hleaves, _, rfl⟩ := mem_neighbors.mp h
  exact leaves_lt he hleaves

theorem related_lt {direction : Direction} {edgeType targetLabel : Option String}
    {hop : Nat × Nat} (h : hop ∈ g.related id direction edgeType targetLabel) :
    id < g.nodeCount ∧ hop.2 < g.nodeCount :=
  neighbor_lt (List.mem_of_mem_filter h)

theorem related_of_missing (h : g.node? id = none) {direction : Direction}
    {edgeType targetLabel : Option String} : g.related id direction edgeType targetLabel = [] := by
  apply List.eq_nil_iff_forall_not_mem.mpr
  intro hop hhop
  obtain ⟨n, hn⟩ := exists_node? (related_lt hhop).1
  rw [h] at hn
  cases hn

theorem filter_id (g : Graph) (id : Nat) :
    (g.nodes.toList.filter fun n => n.id == id) = (g.node? id).toList := by
  cases hnode : g.node? id with
  | none =>
    apply List.filter_eq_nil_iff.mpr
    intro n hn heq
    rw [← beq_iff_eq.mp heq, mem_nodes_iff.mp hn] at hnode
    cases hnode
  | some n =>
    have hid := id_of_node? hnode
    have hmem : n ∈ g.nodes.toList := mem_nodes_iff.mpr (hid.symm ▸ hnode)
    obtain ⟨before, after, hsplit⟩ := List.append_of_mem hmem
    have hdistinct : g.nodes.toList.Pairwise fun a b => a.id ≠ b.id :=
      g.ids_ascending.imp fun hlt => Nat.ne_of_lt hlt
    rw [hsplit] at hdistinct ⊢
    have hothers := (List.pairwise_cons.mp (List.pairwise_middle Ne.symm |>.mp hdistinct)).1
    have hnone : ∀ part ⊆ before ++ after, (part.filter fun m => m.id == id) = [] := by
      intro part hpart
      apply List.filter_eq_nil_iff.mpr
      intro m hm heq
      exact hothers m (hpart hm) (hid.trans (beq_iff_eq.mp heq).symm)
    rw [List.filter_append, hnone before (List.subset_append_left _ _)]
    simp [hid, hnone after (List.subset_append_right _ _)]

end Graph

theorem Row.get_of_node? {row : Row} {name : String} {id : Nat} (h : row.node? name = some id) :
    row.get name = .ok (.node id) := by
  rw [Row.get, Row.get?_of_node? h]

namespace Resolver

variable {g : Graph} {id : Nat}

theorem passesAll_sourceIs {row : Row} {n : Nat} (hrow : row.node? searchVariable = some n)
    (hn : n < 0x8000000000000000) (hid : id < 0x8000000000000000) :
    passesAll g row [sourceIs id] = .ok (row.node? searchVariable == some id) := by
  have hsame : (Int64.ofNat n == Int64.ofNat id) = (n == id) := by
    rw [Bool.eq_iff_iff, beq_iff_eq, beq_iff_eq]
    constructor
    · intro heq
      have hnumber := congrArg Int64.toInt heq
      rw [toInt_ofNat_of_lt hn, toInt_ofNat_of_lt hid] at hnumber
      exact Int.ofNat.inj hnumber
    · rintro rfl
      rfl
  have hpasses : (sourceIs id).passes g row = .ok (n == id) := by
    simp [Comparison.passes, sourceIs, Operand.eval, Row.get_of_node? hrow, Value.isNull,
      ComparisonOp.holds, Value.equals, Value.same, hsame, bind, Except.bind, pure, Except.pure]
  rw [passesAll, hpasses, hrow]
  cases heq : n == id with
  | true => simpa [passesAll, bind, Except.bind] using heq
  | false => simpa [bind, Except.bind, pure, Except.pure] using heq

theorem findRows_sourceIs {p : Pattern} {rowsOf : Node → List Row}
    (hmatches : p.matches g [] = .ok (g.nodes.toList.flatMap rowsOf))
    (hrows : ∀ n, ∀ row ∈ rowsOf n, row.node? searchVariable = some n.id)
    (hsize : g.nodeCount ≤ 0x8000000000000000) (hid : id < 0x8000000000000000) :
    findRows g p [sourceIs id] [] = .ok ((g.node? id).toList.flatMap rowsOf) := by
  have hpasses : ∀ row ∈ g.nodes.toList.flatMap rowsOf,
      (do return if ← passesAll g row [sourceIs id] then [row] else [] : Evaluation (List Row)) =
        .ok (if row.node? searchVariable == some id then [row] else []) := by
    intro row hrow
    obtain ⟨n, hn, hmem⟩ := List.mem_flatMap.mp hrow
    rw [passesAll_sourceIs (hrows n row hmem) (Search.id_lt_of_mem hsize hn) hid]
    rfl
  have hone : ∀ n, ((rowsOf n).filter fun row => row.node? searchVariable == some id) =
      if n.id == id then rowsOf n else [] := by
    intro n
    split
    case isTrue heq =>
      apply List.filter_eq_self.mpr
      intro row hrow
      rw [hrows n row hrow]
      simpa using heq
    case isFalse hne =>
      apply List.filter_eq_nil_iff.mpr
      intro row hrow
      rw [hrows n row hrow]
      simpa using hne
  have hfind : findRows g p [sourceIs id] [] = collect (fun row => do
      return if ← passesAll g row [sourceIs id] then [row] else [])
        (g.nodes.toList.flatMap rowsOf) := by
    rw [findRows, hmatches]
    rfl
  rw [hfind, collect_filter (g := fun row => row) hpasses, List.map_id', List.filter_flatMap,
    funext hone, flatMap_if fun n : Node => n.id == id, g.filter_id]

def relationRow (id : Nat) (hop : Nat × Nat) : Row :=
  [(targetVariable, .node hop.2), (searchVariable, .node id)]

theorem hopTo_relation (n : Node) (direction : Direction) (edgeType targetLabel : Option String)
    {hop : Nat × Nat} (hfar : hop.2 < g.nodeCount) :
    hopTo g ⟨none, edgeType, direction⟩ ⟨targetVariable, targetLabel, []⟩ (searchRow n) hop =
      .ok (if targetLabel.all (g.labelled hop.2) then [relationRow n.id hop] else []) := by
  obtain ⟨far, hnode⟩ := Graph.exists_node? hfar
  have hlabelled : g.labelled hop.2 = far.hasLabel := by
    funext label
    rw [Graph.labelled, hnode, Option.any_some]
  have hfits : NodePattern.fits ⟨targetVariable, targetLabel, []⟩ g (searchRow n) hop.2 =
      .ok (targetLabel.all (g.labelled hop.2)) := by
    have hadmits : NodePattern.admits ⟨targetVariable, targetLabel, []⟩ far =
        targetLabel.all far.hasLabel := Bool.and_true _
    rw [hlabelled, ← hadmits, ← Option.any_some (p := NodePattern.admits _), ← hnode]
    rfl
  show (do
    if ← NodePattern.fits ⟨targetVariable, targetLabel, []⟩ g (searchRow n) hop.2 then
      return [relationRow n.id hop]
    else return [] : Evaluation (List Row)) = _
  rw [hfits]
  cases targetLabel.all (g.labelled hop.2) with
  | true => rfl
  | false => rfl

theorem matches_relation (g : Graph) (direction : Direction)
    (edgeType targetLabel : Option String) :
    (relationPattern edgeType direction targetLabel).matches g [] =
      .ok (g.nodes.toList.flatMap fun n =>
        (g.related n.id direction edgeType targetLabel).map (relationRow n.id)) := by
  rw [Pattern.matches, show (relationPattern edgeType direction targetLabel).start.candidates g [] =
    _ from Search.candidates_start g]
  show collect _ (g.nodes.toList.map Node.id) = _
  rw [collect_of_map]
  apply collect_ok
  intro n _
  exact collect_filter fun hop hhop =>
    hopTo_relation n direction edgeType targetLabel (Graph.neighbor_lt hhop).2

theorem findRows_collection (g : Graph) (label : String) :
    findRows g (collectionPattern label) [] [] =
      .ok ((g.nodes.toList.filter (·.hasLabel label)).map searchRow) := by
  have hadmits : ∀ n ∈ g.nodes.toList,
      NodePattern.admits ⟨searchVariable, label, []⟩ n = n.hasLabel label :=
    fun n _ => Bool.and_true _
  rw [collectionPattern, findRows_node, List.filter_congr hadmits]

/-- A find answers with one value for each of its rows. -/
theorem execute_find {α : Type} {text : String} {p : Pattern} {filter : List Comparison}
    {o : Operand} {column : String} {items : List α} {rowOf : α → Row} {value : α → Value}
    (hparse : Script.parse text = .ok [[.find p filter, .result [⟨.value o, column⟩]]])
    (hrows : findRows g p filter [] = .ok (items.map rowOf))
    (hvalue : ∀ a ∈ items, o.eval g (rowOf a) = .ok (value a)) :
    memoryStore.execute text g = (.ok ⟨[column], items.map fun a => [value a], []⟩, g) := by
  have hfind : collect (findRows g p filter) [[]] = .ok (items.map rowOf) := by
    rw [collect, hrows]
    simp [collect, bind, Except.bind, pure, Except.pure]
  have hproject : project g [⟨.value o, column⟩] (items.map rowOf) =
      .ok (items.map fun a => [value a]) := by
    rw [project, if_neg (by simp [ReturnItem.isCount]), List.mapM_map]
    apply mapM_ok
    intro a ha
    simp [collect, ReturnItem.eval, hvalue a ha, bind, Except.bind, pure, Except.pure]
  have hrun : Script.run .read g [[.find p filter, .result [⟨.value o, column⟩]]] =
      .ok (⟨g, .zero⟩, ⟨[column], items.map fun a => [value a]⟩) := by
    simp only [Script.run, runQueries, Query.run, runClauses, Clause.run, hfind, hproject, bind,
      Except.bind, pure, Except.pure]
    rfl
  have hread : Script.isReadOnly [[.find p filter, .result [⟨.value o, column⟩]]] = true := rfl
  have htext : g.runText text = .ok (⟨[column], items.map fun a => [value a], []⟩, g) := by
    simp only [Graph.runText, hparse, hread, if_true, hrun]
    rfl
  simp only [Store.execute, memoryStore, htext]

theorem resolve_of_execute {r : Resolver} {source : Option NodeRef} {arguments : Arguments}
    {text : String} {table : Table} (hstatement : r.statement source arguments = .ok (some text))
    (h : memoryStore.execute text g = (.ok table, g)) :
    r.resolve memoryStore source arguments g = (.ok (r.read table), g) := by
  rw [resolve, hstatement]
  exact storeM_bind_ok h

theorem references_column {α : Type} (column : String) {items : List α} {number : α → Nat}
    (h : ∀ a ∈ items, number a < 0x8000000000000000) :
    (Table.firstColumn
      ⟨[column], items.map fun a => [.int (Int64.ofNat (number a))], []⟩).filterMap nodeOf? =
      items.map fun a => ⟨number a, none⟩ := by
  rw [Table.firstColumn, List.filterMap_map, List.filterMap_filterMap, ← List.filterMap_eq_map]
  apply List.filterMap_congr
  intro a ha
  simp [nodeOf?, Value.int?, toInt_ofNat_of_lt (h a ha)]

theorem resolve_property {field : String} (hfield : isPlainIdentifier field = true)
    (hsize : g.nodeCount ≤ 0x8000000000000000) (hid : id < 0x8000000000000000)
    (typeName : Option String) (arguments : Arguments) :
    resolve (.property field) memoryStore (some ⟨id, typeName⟩) arguments g =
      (.ok (.scalar (((g.node? id).bind (·.properties.get? field)).getD .null)), g) := by
  obtain ⟨text, hstatement⟩ : ∃ text,
      statement (.property field) (some ⟨id, typeName⟩) arguments = .ok (some text) := ⟨_, rfl⟩
  obtain ⟨_, heq, hread, _⟩ := parse_property hfield hstatement
  cases heq
  obtain ⟨column, hparse⟩ := hread hid
  have hrows : findRows g Search.pattern [sourceIs id] [] =
      .ok ((g.node? id).toList.map searchRow) := by
    have hmatches : Search.pattern.matches g [] =
        .ok (g.nodes.toList.flatMap fun n => [searchRow n]) := by
      rw [Search.matches_pattern, List.map_eq_flatMap]
    rw [List.map_eq_flatMap]
    exact findRows_sourceIs hmatches (by simp [searchRow, Row.node?_cons]) hsize hid
  have hvalue : ∀ n ∈ (g.node? id).toList,
      Operand.eval g (searchRow n) (.property searchVariable field) =
        .ok ((n.properties.get? field).getD .null) := by
    intro n hn
    have hnode := Option.mem_toList.mp hn
    rw [Operand.eval, get_searchRow, Graph.id_of_node? hnode]
    show Except.ok (((g.node? id).bind _).getD _) = _
    rw [hnode, Option.bind_some]
  rw [resolve_of_execute hstatement (execute_find hparse hrows hvalue)]
  cases g.node? id with
  | none => rfl
  | some n => rfl

theorem findRows_relation (direction : Direction) (edgeType targetLabel : Option String)
    (hsize : g.nodeCount ≤ 0x8000000000000000) (hid : id < 0x8000000000000000) :
    findRows g (relationPattern edgeType direction targetLabel) [sourceIs id] [] =
      .ok ((g.related id direction edgeType targetLabel).map (relationRow id)) := by
  have hrow : ∀ n : Node, ∀ row ∈ (g.related n.id direction edgeType targetLabel).map
      (relationRow n.id), row.node? searchVariable = some n.id := by
    intro n row hrow
    obtain ⟨hop, _, rfl⟩ := List.mem_map.mp hrow
    rfl
  rw [findRows_sourceIs (matches_relation g direction edgeType targetLabel) hrow hsize hid]
  cases hnode : g.node? id with
  | none =>
    rw [Graph.related_of_missing hnode]
    rfl
  | some n =>
    rw [Option.toList_some, List.flatMap_singleton, Graph.id_of_node? hnode]

theorem resolve_relation {edgeType targetLabel : Option String} {multiplicity : Multiplicity}
    {direction : Direction} (hplain : Plain (.relation multiplicity edgeType direction targetLabel))
    (hsize : g.nodeCount ≤ 0x8000000000000000) (hid : id < 0x8000000000000000)
    (typeName : Option String) (arguments : Arguments) :
    resolve (.relation multiplicity edgeType direction targetLabel) memoryStore
        (some ⟨id, typeName⟩) arguments g =
      (.ok (match multiplicity with
        | .single => .reference ((g.related id direction edgeType targetLabel).map
          fun hop => ⟨hop.2, none⟩).head?
        | .many => .references ((g.related id direction edgeType targetLabel).map
          fun hop => ⟨hop.2, none⟩)), g) := by
  obtain ⟨text, hstatement⟩ : ∃ text, statement
      (.relation multiplicity edgeType direction targetLabel) (some ⟨id, typeName⟩) arguments =
        .ok (some text) := ⟨_, rfl⟩
  obtain ⟨_, heq, hread, _⟩ := parse_relation hplain hstatement
  cases heq
  obtain ⟨column, hparse⟩ := hread hid
  have hvalue : ∀ hop ∈ g.related id direction edgeType targetLabel,
      Operand.eval g (relationRow id hop) (.id targetVariable) =
        .ok (.int (Int64.ofNat hop.2)) := fun hop _ => rfl
  have hfar : ∀ hop ∈ g.related id direction edgeType targetLabel,
      hop.2 < 0x8000000000000000 := fun hop hhop =>
    Nat.lt_of_lt_of_le (Graph.related_lt hhop).2 hsize
  rw [resolve_of_execute hstatement
    (execute_find hparse (findRows_relation direction edgeType targetLabel hsize hid) hvalue)]
  cases multiplicity with
  | single => rw [read, references_column column hfar]
  | many => rw [read, references_column column hfar]

theorem resolve_collection {label : String} (hlabel : isPlainIdentifier label = true)
    (hsize : g.nodeCount ≤ 0x8000000000000000) (source : Option NodeRef) (arguments : Arguments) :
    resolve (.collection label) memoryStore source arguments g =
      (.ok (.references ((g.nodes.toList.filter (·.hasLabel label)).map fun n => ⟨n.id, none⟩)),
        g) := by
  obtain ⟨column, hparse⟩ := parse_collection hlabel
  have hnumber : ∀ n ∈ g.nodes.toList.filter (·.hasLabel label), n.id < 0x8000000000000000 :=
    fun n hn => Search.id_lt_of_mem hsize (List.mem_of_mem_filter hn)
  have hstatement : statement (.collection label) source arguments =
    .ok (some ("MATCH (n:" ++ label ++ ") RETURN id(n)")) := rfl
  rw [resolve_of_execute hstatement (execute_find hparse (findRows_collection g label)
    fun n _ => eval_searchRow_id g n), read, references_column column hnumber]

/-- Resolving by statement text is a lookup in the graph, for every node number of 63 bits, whether
there is such a node or not. Node numbers are sent as 64-bit integers, which are enough for any
graph held in memory. -/
theorem resolves_as_lookup (hsize : g.nodeCount ≤ 0x8000000000000000)
    (hid : id < 0x8000000000000000) (typeName : Option String) (arguments : Arguments) :
    (∀ field, isPlainIdentifier field = true →
      resolve (.property field) memoryStore (some ⟨id, typeName⟩) arguments g =
        (.ok (.scalar (((g.node? id).bind (·.properties.get? field)).getD .null)), g)) ∧
    (∀ edgeType direction targetLabel, (∀ name ∈ edgeType, isPlainIdentifier name = true) →
      (∀ name ∈ targetLabel, isPlainIdentifier name = true) →
      ∃ hops, hops = (g.neighbors id direction edgeType).filter
          (fun hop => targetLabel.all (g.labelled hop.2)) ∧
        hops.Pairwise (fun a b => a.1 < b.1) ∧
        resolve (.relation .many edgeType direction targetLabel) memoryStore (some ⟨id, typeName⟩)
          arguments g = (.ok (.references (hops.map fun hop => ⟨hop.2, none⟩)), g) ∧
        resolve (.relation .single edgeType direction targetLabel) memoryStore
          (some ⟨id, typeName⟩) arguments g =
            (.ok (.reference (hops.head?.map fun hop => ⟨hop.2, none⟩)), g)) ∧
    ∀ label, isPlainIdentifier label = true → ∀ source, ∃ refs,
      resolve (.collection label) memoryStore source arguments g = (.ok (.references refs), g) ∧
        refs.Pairwise (fun a b => a.id < b.id) ∧
        ∀ ref, ref ∈ refs ↔ ∃ n ∈ g.nodes, n.label = some label ∧ ref = ⟨n.id, none⟩ := by
  refine ⟨?_, ?_, ?_⟩
  · intro field hfield
    exact resolve_property hfield hsize hid typeName arguments
  · intro edgeType direction targetLabel htype hlabel
    have hascending := g.neighbors_ascending id direction edgeType
    refine ⟨_, rfl, hascending.sublist List.filter_sublist, ?_, ?_⟩
    · exact resolve_relation ⟨htype, hlabel⟩ hsize hid typeName arguments
    · rw [resolve_relation ⟨htype, hlabel⟩ hsize hid typeName arguments, List.head?_map]
      rfl
  · intro label hlabel source
    refine ⟨_, resolve_collection hlabel hsize source arguments, ?_, ?_⟩
    · rw [List.pairwise_map]
      exact g.ids_ascending.sublist List.filter_sublist
    · intro ref
      simp only [List.mem_map, List.mem_filter, Array.mem_toList_iff, Node.hasLabel, beq_iff_eq]
      constructor
      · rintro ⟨n, ⟨hn, hlabelled⟩, rfl⟩
        exact ⟨n, hn, hlabelled, rfl⟩
      · rintro ⟨n, hn, hlabelled, rfl⟩
        exact ⟨n, ⟨hn, hlabelled⟩, rfl⟩

def loopGraph : Graph :=
  (((userGraph.addNode (some "Post") .empty).linkNodes 0 0 "knows" (by decide)).linkNodes 0 1
    "knows" (by decide)).linkNodes 1 0 "knows" (by decide)

theorem loop_resolved_once :
    resolve (.relation .many "knows" .both none) memoryStore (some ⟨0, none⟩) [] loopGraph =
        (.ok (.references [⟨0, none⟩, ⟨1, none⟩, ⟨1, none⟩]), loopGraph) ∧
      resolve (.relation .single "knows" .outgoing "Post") memoryStore (some ⟨0, none⟩) []
        loopGraph = (.ok (.reference (some ⟨1, none⟩)), loopGraph) ∧
      resolve (.property "name") memoryStore (some ⟨7, none⟩) [] loopGraph =
        (.ok (.scalar .null), loopGraph) := by
  have hsize : loopGraph.nodeCount ≤ 0x8000000000000000 := by decide
  obtain ⟨_, hrelation, _⟩ := resolves_as_lookup hsize
    (show 0 < 0x8000000000000000 by decide) none []
  obtain ⟨hproperty, _, _⟩ := resolves_as_lookup hsize
    (show 7 < 0x8000000000000000 by decide) none []
  have hplain : ∀ name ∈ some "knows", isPlainIdentifier name = true := by decide
  obtain ⟨_, rfl, _, hmany, _⟩ := hrelation "knows" .both none hplain (by simp)
  obtain ⟨_, rfl, _, _, hsingle⟩ := hrelation "knows" .outgoing "Post" hplain (by decide)
  exact ⟨hmany, hsingle, hproperty "name" (by decide)⟩

end Resolver

end FieldGraph
