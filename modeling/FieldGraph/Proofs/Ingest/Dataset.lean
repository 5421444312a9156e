import FieldGraph.Proofs.Field.ReadOnly
import FieldGraph.Proofs.Ingest.Labels
import FieldGraph.Proofs.Json.Reading
import FieldGraph.Proofs.Store.Counting

/-!
# The configured document

A document that is only imported into an empty graph is imported once: a graph that has got nodes
from it is not empty, and an import that adds no nodes leaves the graph as it was.
-/
namespace FieldGraph

def importStatements (rootLabel : String) (document : Json) : List String :=
  match compile rootLabel document with
  | .error _ => []
  | .ok b => if b.isEmpty then [] else [b.render]

def fileStatements (rootLabel path : String) (content : FileContent) : List String :=
  match loadDocument path content with
  | .error _ => []
  | .ok document => importStatements rootLabel document

/-- Work on a store and the same work on the store with a list of what it was given come to the
same, and the list gets longer by the given statements. -/
def Records {σ α : Type} (sent : List String) (x : StoreM (σ × List String) α) (y : StoreM σ α)
    (a : σ) : Prop :=
  ∀ issued, x (a, issued) = ((y a).1, (y a).2, issued ++ sent)

namespace Records

variable {σ α β : Type} {x : StoreM (σ × List String) α} {y : StoreM σ α}
  {f : α → StoreM (σ × List String) β} {g : α → StoreM σ β} {a b : σ} {sent rest : List String}

theorem pure (value : α) :
    Records [] (pure value : StoreM (σ × List String) α) (pure value) a := by
  intro issued
  rw [List.append_nil]
  rfl

theorem throw (e : GraphError) :
    Records [] (throw e : StoreM (σ × List String) α) (throw e) a := by
  intro issued
  rw [List.append_nil]
  rfl

theorem execute (s : Store σ) (text : String) :
    Records [text] (s.recording.execute text) (s.execute text) a :=
  fun issued => s.execute_recording text a issued

theorem bind_ok {value : α} (hx : Records sent x y a) (hy : y a = (.ok value, b))
    (hf : Records rest (f value) (g value) b) : Records (sent ++ rest) (x >>= f) (y >>= g) a := by
  intro issued
  have hx := hx issued
  rw [hy] at hx
  rw [storeM_bind_ok hx, storeM_bind_ok hy, hf, List.append_assoc]

/-- What is sent last is all that is sent, whether it fails or not. -/
theorem last (hx : Records sent x y a) (hf : ∀ value b, Records [] (f value) (g value) b) :
    Records sent (x >>= f) (y >>= g) a := by
  intro issued
  have hx := hx issued
  cases hy : y a with
  | mk outcome next =>
    rw [hy] at hx
    cases outcome with
    | error e => rw [storeM_bind_error hx, storeM_bind_error hy]
    | ok value => rw [storeM_bind_ok hx, storeM_bind_ok hy, hf, List.append_nil]

theorem countNodes (s : Store σ) (a : σ) :
    Records [countStatement] s.recording.countNodes s.countNodes a := by
  refine last (execute s countStatement) fun table b => ?_
  cases Store.countOf? table with
  | some n => exact pure n
  | none => exact throw _

theorem importDocument (s : Store σ) (rootLabel : String) (document : Json) (a : σ) :
    Records (importStatements rootLabel document)
      (importDocument s.recording rootLabel document) (importDocument s rootLabel document) a := by
  unfold FieldGraph.importDocument importStatements
  cases compile rootLabel document with
  | error fault => exact throw _
  | ok b =>
    dsimp only
    split
    · exact pure _
    · exact last (execute s b.render) fun table b => pure _

theorem importFile (s : Store σ) (rootLabel path : String) (content : FileContent) (a : σ) :
    Records (fileStatements rootLabel path content)
      (importFile s.recording rootLabel path content) (importFile s rootLabel path content) a := by
  unfold FieldGraph.importFile fileStatements
  cases loadDocument path content with
  | error e => exact throw e
  | ok document => exact importDocument s rootLabel document a

end Records

theorem Mutation.Compiled.ids_ne_nil {objects : List (List (String × Json))} {m : Mutation}
    (h : m.Compiled objects) : m.ids ≠ [] := by
  cases h with
  | node => exact List.cons_ne_nil _ _
  | edge => exact List.cons_ne_nil _ _

/-- An import that succeeds with statements leaves a node at least, and any other leaves all as it
was. -/
theorem import_cases {rootLabel : String} {document : Json} {g g' : Graph}
    {outcome : Except GraphError Import} (hdoc : document.WellFormed)
    (h : importDocument memoryStore rootLabel document g = (outcome, g')) :
    g' = g ∧ (∀ report, outcome = .ok report → report.statements = 0) ∨
      0 < g'.nodeCount ∧ ∃ report, outcome = .ok report := by
  cases outcome with
  | error e => exact .inl ⟨import_failed h, nofun⟩
  | ok report =>
    obtain ⟨b, hcompile, hempty | ⟨hne, hvalues⟩⟩ := import_ok h
    · rw [import_empty hcompile hempty] at h
      cases h
      have hnone : b.mutations = #[] := by simpa [Batch.isEmpty] using hempty
      refine .inl ⟨rfl, fun report hreport => ?_⟩
      cases hreport
      simp [Import.statements, Batch.size, Batch.edgeCount, hnone]
    · obtain ⟨t, himport, _, hreached, _⟩ := import_spec hdoc hcompile hne hvalues g
      rw [himport] at h
      cases h
      -- The first statement holds in the graph, so the nodes that it is about are there.
      obtain ⟨row, hrow⟩ := List.exists_mem_of_ne_nil t.rows hreached.nonempty
      have hholds := (hreached.embeds row hrow).holds _ row.agrees_assignment
      obtain ⟨m, hm⟩ := List.exists_mem_of_ne_nil b.mutations.toList
        (by simpa [Batch.isEmpty] using hne)
      obtain ⟨id, hid⟩ := List.exists_mem_of_ne_nil m.ids
        ((invariant_of_compile hcompile).compiled m hm).ids_ne_nil
      exact .inr ⟨Nat.zero_lt_of_lt ((hholds m hm).lt hid), _, rfl⟩

theorem wellFormed_of_loadDocument {path : String} {content : FileContent} {document : Json}
    (h : loadDocument path content = .ok document) : document.WellFormed := by
  obtain ⟨text, _, h⟩ := bind_eq_ok.mp h
  split at h
  case h_1 hparse =>
    cases h
    exact Json.wellFormed_of_parse? hparse
  case h_2 => cases h

theorem importFile_cases {rootLabel path : String} {content : FileContent} {g g' : Graph}
    {outcome : Except GraphError Import}
    (h : importFile memoryStore rootLabel path content g = (outcome, g')) :
    g' = g ∧ (∀ report, outcome = .ok report → report.statements = 0) ∨
      0 < g'.nodeCount ∧ ∃ report, outcome = .ok report := by
  unfold importFile at h
  cases hload : loadDocument path content with
  | error e =>
    rw [hload] at h
    cases h
    exact .inl ⟨rfl, nofun⟩
  | ok document =>
    rw [hload] at h
    exact import_cases (wellFormed_of_loadDocument hload) h

section

variable {σ : Type} {config : Config} {path : String} {g g' : Graph}
  {outcome : Except GraphError IngestOutcome}

theorem ensureDataset_eq (hdataset : config.dataset = some path)
    (hwhen : config.ingestWhenEmpty = true) (files : String → FileContent) (store : Store σ) :
    ensureDataset config files store = do
      let existing ← store.countNodes
      if 0 < existing then return .skipped existing
      else return .imported (← importFile store config.defaultLabel path (files path)) := by
  unfold ensureDataset
  rw [hdataset]
  dsimp only
  rw [hwhen, if_pos rfl]

variable {files : String → FileContent}

theorem ensure_skips (hdataset : config.dataset = some path)
    (hwhen : config.ingestWhenEmpty = true) (hsize : g.nodeCount < 0x8000000000000000)
    (hsome : 0 < g.nodeCount) :
    ensureDataset config files memoryStore g = (.ok (.skipped g.nodeCount), g) := by
  rw [ensureDataset_eq hdataset hwhen, storeM_bind_ok (countNodes_eq hsize), if_pos hsome]
  rfl

theorem ensure_imports (hdataset : config.dataset = some path)
    (hwhen : config.ingestWhenEmpty = true) (hnone : g.nodeCount = 0) :
    ensureDataset config files memoryStore g = (do
      return .imported (← importFile memoryStore config.defaultLabel path (files path)) :
        StoreM Graph IngestOutcome) g := by
  have hcount : memoryStore.countNodes g = (.ok g.nodeCount, g) :=
    countNodes_eq (by rw [hnone]; decide)
  rw [ensureDataset_eq hdataset hwhen, storeM_bind_ok hcount, if_neg (by omega)]

/-- The configured document is imported with statements into an empty graph, which then has nodes,
or the call leaves the graph as it was. -/
theorem ensure_cases (hdataset : config.dataset = some path)
    (hwhen : config.ingestWhenEmpty = true) (hsize : g.nodeCount < 0x8000000000000000)
    (h : ensureDataset config files memoryStore g = (outcome, g')) :
    g' = g ∧ (∀ report, outcome = .ok (.imported report) → report.statements = 0) ∨
      0 < g'.nodeCount ∧ ∃ report, outcome = .ok (.imported report) := by
  by_cases hnone : g.nodeCount = 0
  · rw [ensure_imports hdataset hwhen hnone] at h
    cases himport : importFile memoryStore config.defaultLabel path (files path) g with
    | mk imported next =>
      have hcases := importFile_cases himport
      cases imported with
      | error e =>
        rw [storeM_bind_error himport] at h
        cases h
        obtain ⟨hsame, _⟩ | ⟨_, report, hreport⟩ := hcases
        · exact .inl ⟨hsame, nofun⟩
        · cases hreport
      | ok report =>
        rw [storeM_bind_ok himport] at h
        cases h
        obtain ⟨hsame, hzero⟩ | ⟨hsome, _⟩ := hcases
        · refine .inl ⟨hsame, fun report hreport => ?_⟩
          cases hreport
          exact hzero report rfl
        · exact .inr ⟨hsome, report, rfl⟩
  · rw [ensure_skips hdataset hwhen hsize (by omega)] at h
    cases h
    exact .inl ⟨rfl, nofun⟩

/-- The statements that a call sends: it counts, and it imports into an empty graph. -/
theorem records_ensureDataset (files : String → FileContent)
    (hdataset : config.dataset = some path) (hwhen : config.ingestWhenEmpty = true)
    (hsize : g.nodeCount < 0x8000000000000000) :
    Records (countStatement :: if g.nodeCount = 0 then
        fileStatements config.defaultLabel path (files path) else [])
      (ensureDataset config files memoryStore.recording) (ensureDataset config files memoryStore)
      g := by
  have hcount := Records.countNodes memoryStore g
  rw [ensureDataset_eq hdataset hwhen, ensureDataset_eq hdataset hwhen]
  by_cases hnone : g.nodeCount = 0
  · rw [if_pos hnone]
    refine hcount.bind_ok (countNodes_eq hsize) ?_
    rw [if_neg (by omega), if_neg (by omega)]
    exact .last (.importFile memoryStore config.defaultLabel path (files path) g) fun report b =>
      .pure _
  · rw [if_neg hnone]
    refine hcount.bind_ok (countNodes_eq hsize) ?_
    rw [if_pos (by omega), if_pos (by omega)]
    exact .pure _

end

/-- Work on a graph that takes nothing away from it. -/
def Adds {α : Type} (x : StoreM Graph α) : Prop := ∀ g : Graph, g.Extends (x g).2

namespace Adds

variable {α β : Type}

theorem pure (value : α) : Adds (pure value : StoreM Graph α) := fun g => .refl g

theorem throw (e : GraphError) : Adds (throw e : StoreM Graph α) := fun g => .refl g

theorem bind {x : StoreM Graph α} {f : α → StoreM Graph β} (hx : Adds x)
    (hf : ∀ value, Adds (f value)) : Adds (x >>= f) := by
  intro g
  have hfirst := hx g
  cases hrun : x g with
  | mk outcome next =>
    rw [hrun] at hfirst
    cases outcome with
    | error e => rwa [storeM_bind_error hrun]
    | ok value =>
      rw [storeM_bind_ok hrun]
      exact hfirst.trans (hf value next)

theorem execute (text : String) : Adds (memoryStore.execute text) := by
  intro g
  rw [Store.execute_eq]
  exact submit_extends rfl

theorem importDocument (rootLabel : String) (document : Json) :
    Adds (importDocument memoryStore rootLabel document) := by
  unfold FieldGraph.importDocument
  split
  · exact throw _
  · split
    · exact pure _
    · exact bind (execute _) fun table => pure _

theorem ensureDataset (config : Config) (files : String → FileContent) :
    Adds (ensureDataset config files memoryStore) := by
  have hfile : ∀ path, Adds (importFile memoryStore config.defaultLabel path (files path)) := by
    intro path
    unfold importFile
    split
    · exact throw _
    · exact importDocument _ _
  have hcount : Adds memoryStore.countNodes := by
    refine bind (execute _) fun table => ?_
    split
    · exact pure _
    · exact throw _
  unfold FieldGraph.ensureDataset
  split
  · exact pure _
  · dsimp only
    split
    · refine bind hcount fun existing => ?_
      split
      · exact pure _
      · exact bind (hfile _) fun report => pure _
    · exact bind (hfile _) fun report => pure _

end Adds

/-- With a document that is only imported into an empty graph, a second call changes nothing. A
call sends the document only if it found no nodes, and a call that fails leaves the graph as it was.
After an import with statements the second call reports as many nodes as there are, which is one at
least. Counts are 64-bit integers, which are enough for any graph held in memory. -/
theorem dataset_imported_once {config : Config} {path : String} {files : String → FileContent}
    {g g' : Graph} {outcome : Except GraphError IngestOutcome}
    (hdataset : config.dataset = some path) (hwhen : config.ingestWhenEmpty = true)
    (h : ensureDataset config files memoryStore g = (outcome, g'))
    (hsize : g'.nodeCount < 0x8000000000000000) :
    (∃ second, ensureDataset config files memoryStore g' = (second, g')) ∧
    ensureDataset config files memoryStore.recording (g, []) =
      (outcome, g', countStatement :: if g.nodeCount = 0 then
        fileStatements config.defaultLabel path (files path) else []) ∧
    (∀ e, outcome = .error e → g' = g) ∧
    (∀ report, outcome = .ok (.imported report) → 0 < report.statements →
      1 ≤ g'.nodeCount ∧
        ensureDataset config files memoryStore g' = (.ok (.skipped g'.nodeCount), g')) := by
  have hextends : g.Extends g' := by
    have hadds := Adds.ensureDataset config files g
    rwa [h] at hadds
  have hbefore : g.nodeCount < 0x8000000000000000 :=
    Nat.lt_of_le_of_lt hextends.nodeCount_le hsize
  have hrecords := records_ensureDataset files hdataset hwhen hbefore []
  rw [h, List.nil_append] at hrecords
  have hcases := ensure_cases hdataset hwhen hbefore h
  refine ⟨?_, hrecords, ?_, ?_⟩
  · rcases hcases with ⟨rfl, _⟩ | ⟨hsome, _⟩
    · exact ⟨outcome, h⟩
    · exact ⟨_, ensure_skips hdataset hwhen hsize hsome⟩
  · rintro e rfl
    rcases hcases with ⟨hsame, _⟩ | ⟨_, report, hreport⟩
    · exact hsame
    · cases hreport
  · rintro report rfl hstatements
    rcases hcases with ⟨_, hzero⟩ | ⟨hsome, _⟩
    · exact absurd (hzero report rfl) (Nat.ne_of_gt hstatements)
    · exact ⟨hsome, ensure_skips hdataset hwhen hsize hsome⟩

theorem loadDocument_toUTF8 (path : String) {text : String} {document : Json}
    (h : Json.parse? text = some document) :
    loadDocument path (some text.toUTF8) = .ok document := by
  simp only [loadDocument, FileContent.text_toUTF8, h, bind, Except.bind, pure, Except.pure]

def postText : String := "\x7b\"title\": \"a\", \"user\": \x7b\"name\": \"b\"\x7d\x7d"

def postConfig : Config := { Config.default with dataset := some "post.json" }

/-- The post and its user are imported into the empty graph by the first call only. -/
theorem post_imported_once :
    ∃ files : String → FileContent, ∃ report g',
      ensureDataset postConfig files memoryStore .empty = (.ok (.imported report), g') ∧
      report.statements = 3 ∧ g'.nodeCount = 2 ∧
      ensureDataset postConfig files memoryStore g' = (.ok (.skipped 2), g') := by
  have hrun : (Json.parse? postText).map (fun document =>
      let result := importDocument memoryStore defaultLabel document .empty
      (result.1.toOption.map Import.statements, result.2.nodeCount)) = some (some 3, 2) := by
    decide +kernel
  obtain ⟨document, hparse, himport⟩ := Option.map_eq_some_iff.mp hrun
  obtain ⟨hstatements, hcount⟩ := Prod.mk.inj himport
  obtain ⟨report, hreport, hthree⟩ := exists_ok_of_toOption hstatements
  have hfile : importFile memoryStore defaultLabel "post.json" (some postText.toUTF8) .empty =
      (.ok report, (importDocument memoryStore defaultLabel document .empty).2) := by
    rw [importFile, loadDocument_toUTF8 "post.json" hparse]
    exact Prod.ext hreport rfl
  have hensure : ensureDataset postConfig (fun _ => some postText.toUTF8) memoryStore .empty =
      (.ok (.imported report), (importDocument memoryStore defaultLabel document .empty).2) := by
    rw [ensure_imports rfl rfl rfl]
    exact storeM_bind_ok hfile
  obtain ⟨_, _, _, hskipped⟩ := dataset_imported_once rfl rfl hensure (by rw [hcount]; decide)
  obtain ⟨_, hsecond⟩ := hskipped report rfl (by rw [hthree]; decide)
  exact ⟨_, report, _, hensure, hthree, hcount, by rw [hsecond, hcount]⟩

end FieldGraph
