import FieldGraph.Proofs.Ingest.Import

/-!
# Importing a document again

A second import of a document always succeeds. It leaves the graph as it is exactly if the graph is
saturated, and then it reports no changes. The first import need not leave a saturated graph: a
later object can match what an earlier object asked for.
-/
namespace FieldGraph

theorem Counters.lines_eq_nil_iff {c : Counters} : c.lines = [] ↔ c = .zero := by
  obtain ⟨nodes, properties, relationships⟩ := c
  simp [lines, zero]

theorem Draft.Grows.counters_ne_zero {g : Graph} {e : Draft} (h : Draft.Grows ⟨g, .zero⟩ e)
    (hsize : g.size < e.graph.size) : e.counters ≠ .zero := by
  intro hzero
  have hnodes := h.nodes
  have hedges := h.edges
  simp only [hzero, Graph.size, Counters.zero] at hnodes hedges hsize
  omega

variable {rootLabel : String} {document : Json}

/-- Importing a document again succeeds, and it is harmless exactly if, however the statements
before a statement hold in the graph, that statement can hold with the same nodes. -/
theorem import_again_harmless_iff {g g' : Graph} {report : Import} (hdoc : document.WellFormed)
    (h : importDocument memoryStore rootLabel document g = (.ok report, g')) :
    ∃ b again g'', compile rootLabel document = .ok b ∧
      importDocument memoryStore rootLabel document g' = (.ok again, g'') ∧
      (g'' = g' ↔ Saturated g' b.mutations.toList) ∧
      (again.stats = [] ↔ Saturated g' b.mutations.toList) := by
  obtain ⟨b, hcompile, hempty | ⟨hne, hvalues⟩⟩ := import_ok h
  · have hnil : b.mutations.toList = [] := by simpa [Batch.isEmpty] using hempty
    refine ⟨b, _, _, hcompile, import_empty hcompile hempty g', ?_, ?_⟩
    · simp [hnil, Saturated, SaturatedAfter]
    · simp [hnil, Saturated, SaturatedAfter]
  · obtain ⟨t, himport, hgrows, _, hadded⟩ := import_spec hdoc hcompile hne hvalues g'
    refine ⟨b, _, _, hcompile, himport, ?_, ?_⟩
    · rcases hadded with ⟨heq, hsaturated⟩ | ⟨hsize, hnot⟩
      · exact ⟨fun _ => hsaturated, fun _ => by rw [heq]⟩
      · refine ⟨fun heq => ?_, fun hsaturated => absurd hsaturated hnot⟩
        rw [heq] at hsize
        exact absurd hsize (Nat.lt_irrefl _)
    · rcases hadded with ⟨heq, hsaturated⟩ | ⟨hsize, hnot⟩
      · exact ⟨fun _ => hsaturated, fun _ => Counters.lines_eq_nil_iff.mpr (by rw [heq])⟩
      · refine ⟨fun hnil => ?_, fun hsaturated => absurd hsaturated hnot⟩
        exact absurd (Counters.lines_eq_nil_iff.mp hnil) (hgrows.counters_ne_zero hsize)

theorem user_imported_again_unchanged :
    ∃ report g' again, importDocument memoryStore defaultLabel userDocument .empty =
        (.ok report, g') ∧
      importDocument memoryStore defaultLabel userDocument g' = (.ok again, g') ∧
      again.stats = [] := by
  have hdoc : userDocument.WellFormed := by
    simp [userDocument, Json.WellFormed, Json.WellFormedFields]
  obtain ⟨g', hfirst, hsecond⟩ :
      ∃ g', importDocument memoryStore defaultLabel userDocument .empty =
          (.ok ⟨1, 1, ["Nodes created: 2", "Properties set: 1", "Relationships created: 1"]⟩, g') ∧
        (importDocument memoryStore defaultLabel userDocument g').1.toOption = some ⟨1, 1, []⟩ :=
    ⟨_, eq_of_toOption_fst (by decide +kernel), by decide +kernel⟩
  obtain ⟨b, again, g'', _, hagain, hgraph, hstats⟩ := import_again_harmless_iff hdoc hfirst
  rw [hagain] at hsecond
  have hnil : again.stats = [] := by rw [Option.some.inj hsecond]
  have hsame := hgraph.mpr (hstats.mp hnil)
  rw [hsame] at hagain
  exact ⟨_, g', again, hfirst, hagain, hnil⟩

/-- Two posts of one number, the second of which has all properties of the first. -/
def twinDocument : Json :=
  .array [.object [("id", .ofNat 1), ("user", .object [("name", .string "Ann")])],
    .object [("id", .ofNat 1), ("x", .ofNat 2)]]

/-- The second post is taken for the first one as well, and gets an edge from the user. -/
theorem twins_gain_edge :
    twinDocument.WellFormed ∧ ∃ report g' again g'',
      importDocument memoryStore defaultLabel twinDocument .empty = (.ok report, g') ∧
      importDocument memoryStore defaultLabel twinDocument g' = (.ok again, g'') ∧
      again.stats = ["Relationships created: 1"] ∧ g'.edgeCount = 1 ∧ g''.edgeCount = 2 := by
  obtain ⟨g', hfirst, hagain, hbefore, hafter⟩ :
      ∃ g', importDocument memoryStore defaultLabel twinDocument .empty = (.ok
          ⟨3, 1, ["Nodes created: 3", "Properties set: 4", "Relationships created: 1"]⟩, g') ∧
        (importDocument memoryStore defaultLabel twinDocument g').1.toOption =
          some ⟨3, 1, ["Relationships created: 1"]⟩ ∧ g'.edgeCount = 1 ∧
        (importDocument memoryStore defaultLabel twinDocument g').2.edgeCount = 2 :=
    ⟨_, eq_of_toOption_fst (by decide +kernel), by decide +kernel⟩
  refine ⟨?_, _, g', _, _, hfirst, eq_of_toOption_fst hagain, rfl, hbefore, hafter⟩
  simp [twinDocument, Json.ofNat, Json.ofInt, IntegerRange, Json.WellFormed, Json.WellFormedItems,
    Json.WellFormedFields]

end FieldGraph
