import FieldGraph.Proofs.Store.Growth

/-!
# Access to the graph

A script without merges runs alike with and without write access, and leaves the graph as it is
wherever it stops. Write access is missed by merges only, and a store never runs a merge without it.
-/
namespace FieldGraph

variable {α β : Type} {access : Access} {g : Graph} {d e : Draft} {s t : Progress} {row : Row}

/-- What the graph and the counters have become after some of the clauses, whether or not a later
one fails. -/
inductive ClausesReach (access : Access) : Progress → List Clause → Draft → Prop
  | start (s : Progress) (clauses : List Clause) : ClausesReach access s clauses s.draft
  | next {s t : Progress} {c : Clause} {clauses : List Clause} {d : Draft}
      (hrun : c.run access s = .ok t) (hrest : ClausesReach access t clauses d) :
      ClausesReach access s (c :: clauses) d

inductive Script.Reaches (access : Access) : Draft → Script → Draft → Prop
  | start (d : Draft) (script : Script) : Script.Reaches access d script d
  | inside {d e : Draft} {query : Query} (script : Script) (hlast : resultIsLast query = true)
      (hquery : ClausesReach access ⟨⟨d.graph, .zero⟩, [[]], .empty⟩ query e) :
      Script.Reaches access d (query :: script) ⟨e.graph, d.counters.add e.counters⟩
  | next {d e f : Draft} {query : Query} {script : Script} {table : QueryTable}
      (hquery : Query.run access d.graph query = .ok (e, table))
      (hrest : Script.Reaches access ⟨e.graph, d.counters.add e.counters⟩ script f) :
      Script.Reaches access d (query :: script) f

/-- The evaluation does not fail for want of write access. -/
def Permitted (x : Evaluation α) : Prop := x ≠ .error (.evaluation .mergeNeedsWriteAccess)

namespace Permitted

theorem ok (a : α) : Permitted (.ok a) := fun h => nomatch h

theorem fault {fault : EvaluationFault} (h : fault ≠ .mergeNeedsWriteAccess) :
    Permitted (.fault fault : Evaluation α) := by
  intro heq
  cases heq
  exact h rfl

theorem bind {x : Evaluation α} {f : α → Evaluation β} (hx : Permitted x)
    (hf : ∀ a, Permitted (f a)) : Permitted (x >>= f) := by
  cases x with
  | error cause => exact fun heq => hx (congrArg Except.error (Except.error.inj heq))
  | ok a => exact hf a

theorem collect {f : α → Evaluation (List β)} (h : ∀ a, Permitted (f a)) (items : List α) :
    Permitted (collect f items) := by
  induction items with
  | nil => exact ok []
  | cons a items ih => exact bind (h a) fun _ => bind ih fun _ => ok _

theorem mapM {f : α → Evaluation β} (h : ∀ a, Permitted (f a)) (items : List α) :
    Permitted (items.mapM f) := by
  induction items with
  | nil => exact ok []
  | cons a items ih =>
    rw [List.mapM_cons]
    exact bind (h a) fun _ => bind ih fun _ => ok _

theorem get (row : Row) (name : String) : Permitted (row.get name) := by
  unfold Row.get
  split
  · exact ok _
  · exact fault (by simp)

theorem eval (g : Graph) (row : Row) (o : Operand) : Permitted (o.eval g row) := by
  cases o with
  | literal value => exact ok value
  | id name =>
    refine bind (get row name) fun b => ?_
    cases b with
    | node n => exact ok _
    | edge n => exact ok _
  | property name key =>
    refine bind (get row name) fun b => ?_
    cases b with
    | node n => exact ok _
    | edge n => exact ok _
  | labels name =>
    refine bind (get row name) fun b => ?_
    cases b with
    | node n => exact ok _
    | edge n => exact fault (by simp)

theorem passesAll (g : Graph) (row : Row) (filter : List Comparison) :
    Permitted (passesAll g row filter) := by
  induction filter with
  | nil => exact ok true
  | cons c filter ih =>
    have hfirst : Permitted (c.passes g row) :=
      bind (eval g row c.left) fun _ => bind (eval g row c.right) fun _ => ok _
    refine bind hfirst fun passed => ?_
    cases passed with
    | true => exact ih
    | false => exact ok false

theorem boundNode (p : NodePattern) (row : Row) : Permitted (p.boundNode row) := by
  unfold NodePattern.boundNode
  split
  · exact ok _
  · split
    · exact ok _
    · exact ok _
    · exact fault (by simp)

theorem fits (p : NodePattern) (g : Graph) (row : Row) (id : Nat) :
    Permitted (p.fits g row id) := by
  refine bind (boundNode p row) fun bound => ?_
  cases bound with
  | none => exact ok _
  | some id => exact ok _

theorem candidates (p : NodePattern) (g : Graph) (row : Row) : Permitted (p.candidates g row) := by
  refine bind (boundNode p row) fun bound => ?_
  cases bound with
  | none => exact ok _
  | some id => exact bind (fits p g row id) fun _ => ok _

theorem hopTo (g : Graph) (r : RelationshipPattern) (stop : NodePattern) (row : Row)
    (hop : Nat × Nat) : Permitted (hopTo g r stop row hop) := by
  obtain ⟨edge, neighbor⟩ := hop
  rw [FieldGraph.hopTo]
  split
  · refine bind (fits stop g row neighbor) fun fitting => ?_
    cases fitting with
    | true => exact ok _
    | false => exact ok _
  · exact ok []

theorem matchFrom (p : Pattern) (g : Graph) (row : Row) (start : Nat) :
    Permitted (p.matchFrom g row start) := by
  unfold Pattern.matchFrom
  split
  · exact ok _
  · exact collect (hopTo g _ _ _) _

theorem pattern (p : Pattern) (g : Graph) (row : Row) : Permitted (p.matches g row) :=
  bind (candidates p.start g row) (collect (matchFrom p g row))

theorem findRows (g : Graph) (p : Pattern) (filter : List Comparison) (row : Row) :
    Permitted (findRows g p filter row) :=
  bind (pattern p g row) (collect fun r => bind (passesAll g r filter) fun _ => ok _)

theorem returnItem (g : Graph) (row : Row) (i : ReturnItem) : Permitted (i.eval g row) := by
  unfold ReturnItem.eval
  split
  · exact bind (eval g row _) fun _ => ok _
  · exact bind (get row _) fun _ => ok _

theorem groupRows (g : Graph) (items : List ReturnItem) (groups : List Group) (rows : List Row) :
    Permitted (groupRows g items groups rows) := by
  induction rows generalizing groups with
  | nil => exact ok groups
  | cons row rows ih => exact bind (collect (returnItem g row) items) fun key => ih _

theorem project (g : Graph) (items : List ReturnItem) (rows : List Row) :
    Permitted (project g items rows) := by
  unfold FieldGraph.project
  split
  · exact bind (groupRows g items [] rows) fun _ => ok _
  · exact mapM (fun row => collect (returnItem g row) items) rows

theorem createNode (p : NodePattern) (d : Draft) (row : Row) : Permitted (p.create d row) := by
  refine bind (boundNode p row) fun bound => ?_
  cases bound with
  | none => exact ok _
  | some id =>
    dsimp only
    split
    · exact ok _
    · exact fault (by simp)

theorem addEdge (d : Draft) (source target : Nat) (edgeType : String) :
    Permitted (d.addEdge source target edgeType) := by
  unfold Draft.addEdge
  split
  · exact ok _
  · exact fun h => nomatch h

theorem create (p : Pattern) (d : Draft) (row : Row) : Permitted (p.create d row) := by
  refine bind (createNode p.start d row) fun ⟨d, row, start⟩ => ?_
  dsimp only
  split
  · exact ok _
  case h_2 r stop _ =>
    split
    · exact fault (by simp)
    · refine bind (createNode stop d row) fun ⟨d, row, target⟩ => ?_
      dsimp only
      split
      all_goals exact bind (addEdge d _ _ _) fun _ => ok _

theorem mergeRow (p : Pattern) (d : Draft) (row : Row) : Permitted (mergeRow .write p d row) := by
  refine bind (pattern p d.graph row) fun found => ?_
  cases found with
  | nil => exact bind (create p d row) fun _ => ok _
  | cons first others => exact ok _

theorem mergeRows (p : Pattern) (d : Draft) (rows : List Row) :
    Permitted (mergeRows .write p d rows) := by
  induction rows generalizing d with
  | nil => exact ok _
  | cons row rows ih => exact bind (mergeRow p d row) fun _ => bind (ih _) fun _ => ok _

theorem clause (c : Clause) (s : Progress) : Permitted (c.run .write s) := by
  cases c with
  | find p filter => exact bind (collect (findRows _ p filter) _) fun _ => ok _
  | merge p => exact bind (mergeRows p _ _) fun _ => ok _
  | result items => exact bind (project _ items _) fun _ => ok _

theorem clauses (s : Progress) (query : Query) : Permitted (runClauses .write s query) := by
  induction query generalizing s with
  | nil => exact ok s
  | cons c query ih => exact bind (clause c s) ih

theorem query (g : Graph) (query : Query) : Permitted (Query.run .write g query) := by
  unfold Query.run
  split
  · exact bind (clauses _ query) fun _ => ok _
  · exact fault (by simp)

theorem queries (d : Draft) (table : QueryTable) (script : Script) :
    Permitted (runQueries .write d table script) := by
  induction script generalizing d table with
  | nil => exact ok _
  | cons first script ih => exact bind (query d.graph first) fun _ => ih _ _

end Permitted

/-- Only a merge asks for access. -/
theorem Clause.run_without_merge {c : Clause} (h : c.isMerge = false) (s : Progress) :
    c.run access s = c.run .read s := by
  cases c with
  | find p filter => rfl
  | merge p => cases h
  | result items => rfl

theorem runClauses_without_merge {query : Query} (h : ∀ c ∈ query, c.isMerge = false)
    (s : Progress) : runClauses access s query = runClauses .read s query := by
  induction query generalizing s with
  | nil => rfl
  | cons c query ih =>
    obtain ⟨hfirst, hrest⟩ := List.forall_mem_cons.mp h
    rw [runClauses, runClauses, Clause.run_without_merge hfirst]
    exact bind_congr (ih hrest)

theorem Query.run_without_merge {query : Query} (h : ∀ c ∈ query, c.isMerge = false) (g : Graph) :
    Query.run access g query = Query.run .read g query := by
  unfold Query.run
  rw [runClauses_without_merge h]

theorem runQueries_without_merge {script : Script}
    (h : ∀ query ∈ script, ∀ c ∈ query, c.isMerge = false) (d : Draft) (table : QueryTable) :
    runQueries access d table script = runQueries .read d table script := by
  induction script generalizing d table with
  | nil => rfl
  | cons query script ih =>
    obtain ⟨hfirst, hrest⟩ := List.forall_mem_cons.mp h
    rw [runQueries, runQueries, Query.run_without_merge hfirst]
    exact bind_congr fun _ => ih hrest _ _

theorem ClausesReach.without_merge {query : Query} (hreach : ClausesReach access s query d)
    (h : ∀ c ∈ query, c.isMerge = false) : d = s.draft := by
  induction hreach with
  | start => rfl
  | next hrun _ ih =>
    obtain ⟨hfirst, hrest⟩ := List.forall_mem_cons.mp h
    rw [Clause.run_without_merge hfirst] at hrun
    rw [ih hrest, Clause.run_read hrun]

theorem Script.Reaches.without_merge {script : Script} (hreach : script.Reaches access d e)
    (h : ∀ query ∈ script, ∀ c ∈ query, c.isMerge = false) : e = d := by
  induction hreach with
  | start => rfl
  | inside script _ hquery =>
    rw [hquery.without_merge (h _ List.mem_cons_self)]
    rfl
  | next hquery _ ih =>
    obtain ⟨hfirst, hrest⟩ := List.forall_mem_cons.mp h
    rw [Query.run_without_merge hfirst] at hquery
    rw [ih hrest, Query.run_read hquery]
    rfl

/-- What a run succeeds with is among what it reaches. -/
theorem reaches_of_runQueries {script : Script} {table found : QueryTable}
    (h : runQueries access d table script = .ok (e, found)) : script.Reaches access d e := by
  induction script generalizing d table with
  | nil =>
    cases h
    exact .start _ []
  | cons query script ih =>
    obtain ⟨⟨next, last⟩, hquery, hrest⟩ := bind_eq_ok.mp h
    exact .next hquery (ih hrest)

/-- A script without merges gives the same table and counters, or the same fault, whether it may
write or not. With write access too it has the graph as it was after each of its clauses, and
counts nothing. No statement is ever told that it lacks write access. -/
theorem access_never_missed (g : Graph) :
    (∀ script : Script, script.isReadOnly = true →
      script.run .read g = script.run .write g ∧
      (∀ d, script.Reaches .write ⟨g, .zero⟩ d → d = ⟨g, .zero⟩) ∧
      ∀ d table, script.run .write g = .ok (d, table) → d = ⟨g, .zero⟩) ∧
    ∀ text, (memoryStore.submit text g).1 ≠
      .failed (.invalidOperation (.evaluation .mergeNeedsWriteAccess)) := by
  have hreads : ∀ script : Script, script.isReadOnly = true →
      ∀ query ∈ script, ∀ c ∈ query, c.isMerge = false := by
    intro script hread
    simpa [Script.isReadOnly] using hread
  refine ⟨fun script hread => ?_, fun text hfailed => ?_⟩
  · have hkept : ∀ d, script.Reaches .write ⟨g, .zero⟩ d → d = ⟨g, .zero⟩ :=
      fun d hreach => hreach.without_merge (hreads script hread)
    refine ⟨(runQueries_without_merge (hreads script hread) _ _).symm, hkept, ?_⟩
    exact fun d table hrun => hkept d (reaches_of_runQueries hrun)
  · have hall : ∀ script : Script, Permitted (script.run script.neededAccess g) := by
      intro script
      unfold Script.neededAccess
      split
      case isTrue hread =>
        rw [Script.run, ← runQueries_without_merge (hreads script hread)]
        exact .queries _ _ script
      case isFalse => exact .queries _ _ script
    unfold memoryStore at hfailed
    dsimp only at hfailed
    split at hfailed
    case h_1 => cases hfailed
    case h_2 e hrun =>
      cases hfailed
      unfold Graph.runText at hrun
      split at hrun
      case h_1 => cases hrun
      case h_2 script _ =>
        dsimp only at hrun
        split at hrun
        case h_1 cause hcause =>
          cases hrun
          exact hall script hcause
        case h_2 => cases hrun

/-- The second query fails in its second clause, at a variable that its first does not bind. -/
def failingReads : String :=
  "MATCH (n) RETURN count(n); MATCH (n:Post) MATCH (m:Post) WHERE id(k) = 0 RETURN id(n)"

theorem failing_reads_run_alike :
    ∃ g script, memoryStore.after .empty ["MERGE (a:Post \x7bid: 1\x7d)"] = g ∧
      Script.parse failingReads = .ok script ∧ script.isReadOnly = true ∧
      (script.run .write g).toOption.isNone = true ∧ script.run .read g = script.run .write g ∧
      (∀ d, script.Reaches .write ⟨g, .zero⟩ d → d = ⟨g, .zero⟩) ∧
      (memoryStore.submit failingReads g).1 ≠
        .failed (.invalidOperation (.evaluation .mergeNeedsWriteAccess)) := by
  obtain ⟨g, hg, hreads⟩ :
      ∃ g, memoryStore.after .empty ["MERGE (a:Post \x7bid: 1\x7d)"] = g ∧
        (Script.parse failingReads).toOption.map
          (fun script => (script.isReadOnly, (script.run .write g).toOption.isNone)) =
            some (true, true) :=
    ⟨_, rfl, by decide +kernel⟩
  obtain ⟨script, hparse, hscript⟩ := exists_ok_of_toOption hreads
  obtain ⟨hread, hfails⟩ := Prod.mk.inj hscript
  obtain ⟨halike, hkept, _⟩ := (access_never_missed g).1 script hread
  exact ⟨g, script, hg, hparse, hread, hfails, halike, hkept,
    (access_never_missed g).2 failingReads⟩

end FieldGraph
