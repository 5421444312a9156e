import FieldGraph.Ingest
import FieldGraph.Proofs.Document.RoundTrip
import FieldGraph.Proofs.Ingest.Running
import FieldGraph.Store.Memory

/-!
# Importing documents

An import into the store in memory runs the statements of the compiled document as one query, and
afterwards all of them hold in the graph with the same nodes for their numbers.
-/
namespace FieldGraph

theorem resultIsLast_merges (patterns : List Pattern) :
    resultIsLast (patterns.map .merge) = true := by
  induction patterns with
  | nil => rfl
  | cons p patterns ih => exact ih

theorem isReadOnly_merges {patterns : List Pattern} (h : patterns ≠ []) :
    Script.isReadOnly [patterns.map .merge] = false := by
  cases patterns with
  | nil => exact absurd rfl h
  | cons p patterns => rfl

variable {objects : List (List (String × Json))} {b : Batch} {rootLabel : String}
  {document : Json}

/-- Running the text of one query of merges is running the merges from one row. -/
theorem runText_merges {text : String} {patterns : List Pattern} {g : Graph} {t : Progress}
    (hparse : Script.parse text = .ok [patterns.map .merge]) (hne : patterns ≠ [])
    (hrun : runClauses .write ⟨⟨g, .zero⟩, [[]], .empty⟩ (patterns.map .merge) = .ok t) :
    g.runText text = .ok (t.table.answer t.draft.counters, t.draft.graph) := by
  have hscript : Script.run .write g [patterns.map .merge] = .ok (t.draft, t.table) := by
    simp only [Script.run, runQueries, Query.run, resultIsLast_merges, if_true, hrun, bind,
      Except.bind, pure, Except.pure, Counters.zero_add]
  simp [Graph.runText, hparse, isReadOnly_merges hne, hscript]

theorem patterns_ne_nil {patterns : List Pattern}
    (hpatterns : b.mutations.toList.map Mutation.pattern? = patterns.map some)
    (hne : b.isEmpty = false) : patterns ≠ [] := by
  rintro rfl
  have hnil : b.mutations.toList = [] := by simpa using hpatterns
  simp [Batch.isEmpty, Array.toList_eq_nil_iff.mp hnil] at hne

theorem runText_render (hms : ∀ m ∈ b.mutations.toList, m.Compiled objects)
    (hobjects : Json.DistinctKeys objects)
    (hfresh : Mutation.DescribedFirst b.mutations.toList)
    (hne : b.isEmpty = false) (hvalues : ∀ m ∈ b.mutations.toList, .int Int64.minValue ∉ m.values)
    (g : Graph) :
    ∃ t : Progress, g.runText b.render = .ok (t.table.answer t.draft.counters, t.draft.graph) ∧
      Draft.Grows ⟨g, .zero⟩ t.draft ∧ Reached b.mutations.toList t.draft.graph t.rows ∧
      ((t.draft = ⟨g, .zero⟩ ∧ Saturated g b.mutations.toList) ∨
        (g.size < t.draft.graph.size ∧ ¬Saturated g b.mutations.toList)) := by
  obtain ⟨patterns, hpatterns, hparse⟩ := parse_render hms hne hvalues
  obtain ⟨t, hrun, hreached, hadded⟩ := runClauses_merges []
    (s := ⟨⟨g, .zero⟩, [[]], .empty⟩) hobjects hms hpatterns hfresh (reached_nil g)
  exact ⟨t, runText_merges hparse (patterns_ne_nil hpatterns hne) hrun, runClauses_grows hrun,
    hreached, hadded (complete_nil g)⟩

theorem import_of_runText (hcompile : compile rootLabel document = .ok b)
    (hne : b.isEmpty = false) {g g' : Graph} {answer : Table}
    (htext : g.runText b.render = .ok (answer, g')) :
    importDocument memoryStore rootLabel document g =
      (.ok ⟨b.size - b.edgeCount, b.edgeCount, answer.stats⟩, g') := by
  have hexecute : memoryStore.execute b.render g = (.ok answer, g') := by
    simp only [Store.execute, memoryStore, htext]
  rw [importDocument, hcompile]
  simp only [hne, Bool.false_eq_true, if_false]
  exact storeM_bind_ok hexecute

theorem import_spec (hdoc : document.WellFormed) (hcompile : compile rootLabel document = .ok b)
    (hne : b.isEmpty = false) (hvalues : ∀ m ∈ b.mutations.toList, .int Int64.minValue ∉ m.values)
    (g : Graph) :
    ∃ t : Progress, importDocument memoryStore rootLabel document g =
        (.ok ⟨b.size - b.edgeCount, b.edgeCount, t.draft.counters.lines⟩, t.draft.graph) ∧
      Draft.Grows ⟨g, .zero⟩ t.draft ∧ Reached b.mutations.toList t.draft.graph t.rows ∧
      ((t.draft = ⟨g, .zero⟩ ∧ Saturated g b.mutations.toList) ∨
        (g.size < t.draft.graph.size ∧ ¬Saturated g b.mutations.toList)) := by
  have hinvariant := invariant_of_compile hcompile
  obtain ⟨t, htext, hrest⟩ := runText_render hinvariant.compiled
    (Json.distinctKeys_of_wellFormed document hdoc) hinvariant.fresh hne hvalues g
  exact ⟨t, import_of_runText hcompile hne htext, hrest⟩

theorem import_empty (hcompile : compile rootLabel document = .ok b) (hempty : b.isEmpty = true)
    (g : Graph) : importDocument memoryStore rootLabel document g =
      (.ok ⟨b.size - b.edgeCount, b.edgeCount, []⟩, g) := by
  rw [importDocument, hcompile]
  simp only [hempty, if_true]
  rfl

theorem import_ok {g g' : Graph} {report : Import}
    (h : importDocument memoryStore rootLabel document g = (.ok report, g')) :
    ∃ b, compile rootLabel document = .ok b ∧
      (b.isEmpty = true ∨ b.isEmpty = false ∧
        ∀ m ∈ b.mutations.toList, .int Int64.minValue ∉ m.values) := by
  cases hcompile : compile rootLabel document with
  | error fault =>
    rw [importDocument, hcompile] at h
    cases h
  | ok b =>
    refine ⟨b, rfl, ?_⟩
    cases hempty : b.isEmpty with
    | true => exact .inl rfl
    | false =>
      refine .inr ⟨rfl, ?_⟩
      by_contra hvalues
      obtain ⟨e, he⟩ := parse_render_fault (invariant_of_compile hcompile).compiled
        (by simpa using hvalues)
      have hexecute : memoryStore.execute b.render g = (.error (.statement e), g) := by
        simp only [Store.execute, memoryStore, Graph.runText, he]
      rw [importDocument, hcompile] at h
      simp only [hempty, Bool.false_eq_true, if_false] at h
      rw [storeM_bind_error hexecute] at h
      cases h

/-- After a successful import there are nodes for all numbers of the compiled document with which
every statement of it holds, whatever the graph was before. No object of a document that was read
has two fields of one name. -/
theorem imported_statements_hold {g g' : Graph} {report : Import} (hdoc : document.WellFormed)
    (h : importDocument memoryStore rootLabel document g = (.ok report, g'))
    (hsome : 0 < report.statements) :
    ∃ b nodeOf, compile rootLabel document = .ok b ∧
      ∀ m ∈ b.mutations, (∀ id ∈ m.ids, nodeOf id < g'.nodeCount) ∧ m.HoldsIn g' nodeOf := by
  obtain ⟨b, hcompile, hempty | ⟨hne, hvalues⟩⟩ := import_ok h
  · rw [import_empty hcompile hempty] at h
    cases h
    have hsize : b.mutations = #[] := by simpa [Batch.isEmpty] using hempty
    simp [Import.statements, Batch.size, Batch.edgeCount, hsize] at hsome
  · obtain ⟨t, himport, _, hreached, _⟩ := import_spec hdoc hcompile hne hvalues g
    rw [himport] at h
    cases h
    obtain ⟨row, hrow⟩ := List.exists_mem_of_ne_nil t.rows hreached.nonempty
    have hholds := (hreached.embeds row hrow).holds _ row.agrees_assignment
    refine ⟨b, row.assignment, hcompile, fun m hm => ?_⟩
    have hm := hholds m (Array.mem_toList_iff.mpr hm)
    exact ⟨fun id hid => hm.lt hid, hm⟩

theorem imported_user_holds :
    ∃ report g', importDocument memoryStore defaultLabel userDocument .empty = (.ok report, g') ∧
      0 < report.statements ∧
      ∃ b nodeOf, compile defaultLabel userDocument = .ok b ∧
        ∀ m ∈ b.mutations, (∀ id ∈ m.ids, nodeOf id < g'.nodeCount) ∧ m.HoldsIn g' nodeOf := by
  have hdoc : userDocument.WellFormed := by
    simp [userDocument, Json.WellFormed, Json.WellFormedFields]
  have hvalues : ∀ m ∈ [Mutation.mergeNode 1 "User" [("name", .string "Ann")],
      .mergeEdge 1 "user" 0], Value.int Int64.minValue ∉ m.values := by
    simp [Mutation.values]
  obtain ⟨t, himport, _⟩ := @import_spec _ defaultLabel _ hdoc rfl rfl hvalues .empty
  have hsome : 0 < 2 := by decide
  exact ⟨_, _, himport, hsome, imported_statements_hold hdoc himport hsome⟩

end FieldGraph
