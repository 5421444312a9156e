import FieldGraph.Proofs.Document.Numbers
import FieldGraph.Proofs.Ingest.Import

/-!
# Stages of an import

What an import has reached after some of its statements. Every statement is merged on the rows that
the statements before it have left, so a property of imports is shown by one induction over the
statements.
-/
namespace FieldGraph

def Progress.start (g : Graph) : Progress := ⟨⟨g, .zero⟩, [[]], .empty⟩

def mergeAll (g : Graph) (ms : List Mutation) : Evaluation Progress :=
  runClauses .write (.start g) ((ms.filterMap Mutation.pattern?).map .merge)

theorem runClauses_append (access : Access) (s : Progress) (first others : List Clause) :
    runClauses access s (first ++ others) = (do
      let t ← runClauses access s first
      runClauses access t others) := by
  induction first generalizing s with
  | nil => rfl
  | cons c first ih =>
    simp only [List.cons_append, runClauses, bind, Except.bind]
    cases c.run access s with
    | error => rfl
    | ok t => exact ih t

/-- The statements of a compiled document: nodes are described before they are used, and an edge
leaves a node that is described. -/
structure Plan (objects : List (List (String × Json))) (ms : List Mutation) : Prop where
  keys : Json.DistinctKeys objects
  compiled : ∀ m ∈ ms, m.Compiled objects
  fresh : Mutation.DescribedFirst ms
  linked : ∀ front child edgeType parent back,
    ms = front ++ .mergeEdge child edgeType parent :: back → ∃ m ∈ front, child ∈ m.described

theorem plan_of_compile {rootLabel : String} {document : Json} {b : Batch}
    (hdoc : document.WellFormed) (h : compile rootLabel document = .ok b) :
    Plan document.objects b.mutations.toList := by
  have hinvariant := invariant_of_compile h
  refine ⟨Json.distinctKeys_of_wellFormed document hdoc, hinvariant.compiled, hinvariant.fresh, ?_⟩
  intro front child edgeType parent back hsplit
  have hmem : .mergeEdge child edgeType parent ∈ b.mutations.toList := by simp [hsplit]
  obtain ⟨m, hm, hchild⟩ := Batch.mem_described.mp
    ((execution_of_compile h).child_described hmem)
  have hfresh := hinvariant.fresh
  rw [hsplit] at hm hfresh
  exact ⟨m, hfresh.mem_front hm hchild List.mem_cons_self List.not_mem_nil, hchild⟩

namespace Plan

variable {objects : List (List (String × Json))} {front back ms : List Mutation} {m : Mutation}
  {g : Graph}

theorem before (h : Plan objects (front ++ back)) : Plan objects front := by
  refine ⟨h.keys, fun m hm => h.compiled m (List.mem_append_left _ hm),
    (List.pairwise_append.mp h.fresh).1, ?_⟩
  intro first child edgeType parent others hsplit
  refine h.linked first child edgeType parent (others ++ back) ?_
  rw [hsplit, List.append_assoc]
  rfl

theorem exists_pattern (h : Plan objects ms) (hm : m ∈ ms) : ∃ p, m.pattern? = some p := by
  cases h.compiled m hm with
  | node => exact ⟨_, rfl⟩
  | edge => exact ⟨_, rfl⟩

theorem map_pattern? (h : Plan objects ms) :
    ms.map Mutation.pattern? = (ms.filterMap Mutation.pattern?).map some := by
  have hall : ∀ m ∈ ms, ∃ p, m.pattern? = some p := fun m => h.exists_pattern
  clear h
  induction ms with
  | nil => rfl
  | cons m ms ih =>
    obtain ⟨p, hp⟩ := hall m List.mem_cons_self
    rw [List.filterMap_cons_some hp, List.map_cons, List.map_cons, hp,
      ih fun n hn => hall n (List.mem_cons_of_mem _ hn)]

theorem mergeAll_spec (h : Plan objects ms) (g : Graph) :
    ∃ s, mergeAll g ms = .ok s ∧ Reached ms s.draft.graph s.rows := by
  obtain ⟨s, hrun, hreached, _⟩ := runClauses_merges [] (s := .start g) h.keys h.compiled
    h.map_pattern? h.fresh (reached_nil g)
  exact ⟨s, hrun, hreached⟩

theorem reached (h : Plan objects ms) {s : Progress} (hs : mergeAll g ms = .ok s) :
    Reached ms s.draft.graph s.rows := by
  obtain ⟨t, ht, hreached⟩ := h.mergeAll_spec g
  rw [hs] at ht
  cases ht
  exact hreached

/-- The last statement of a plan is merged on what the statements before it have reached. -/
structure Stage (objects : List (List (String × Json))) (g : Graph) (front : List Mutation)
    (m : Mutation) (p : Pattern) (s u : Progress) : Prop where
  plan : Plan objects (front ++ [m])
  pattern : m.pattern? = some p
  before : mergeAll g front = .ok s
  after : mergeAll g (front ++ [m]) = .ok u
  run : mergeRows .write p s.draft s.rows = .ok (u.draft, u.rows)
  reached : Reached front s.draft.graph s.rows
  merged : Merged m s.draft u.draft s.rows u.rows

theorem Stage.compiled {p : Pattern} {s u : Progress} (h : Stage objects g front m p s u) :
    m.Compiled objects :=
  h.plan.compiled m (by simp)

theorem Stage.described {p : Pattern} {s u : Progress} (h : Stage objects g front m p s u)
    {id : Nat} (hid : id ∈ m.described) : ∀ n ∈ front, id ∉ n.ids :=
  fun n hn => (List.pairwise_append.mp h.plan.fresh).2.2 n hn m (by simp) id hid

theorem stage (h : Plan objects (front ++ [m])) (g : Graph) :
    ∃ p s u, Stage objects g front m p s u := by
  have hm : m ∈ front ++ [m] := by simp
  obtain ⟨p, hp⟩ := h.exists_pattern hm
  obtain ⟨s, hs, hreached⟩ := h.before.mergeAll_spec g
  have hunbound : ∀ row ∈ s.rows, ∀ id ∈ m.described, row.numbered id = none := by
    intro row hrow id hid
    apply (hreached.embeds row hrow).numbered_eq_none
    intro n hn
    exact (List.pairwise_append.mp h.fresh).2.2 n hn m (by simp) id hid
  obtain ⟨e, found, hrows, hmerged⟩ := mergeRows_spec (h.compiled m hm) h.keys hp
    (fun row hrow => (hreached.embeds row hrow).nodes) hunbound
  refine ⟨p, s, { s with draft := e, rows := found }, h, hp, hs, ?_, hrows, hreached, hmerged⟩
  have hpatterns : (front ++ [m]).filterMap Mutation.pattern? =
      front.filterMap Mutation.pattern? ++ [p] := by
    simp [hp]
  rw [mergeAll, hpatterns, List.map_append, runClauses_append]
  rw [mergeAll] at hs
  simp only [hs, bind, Except.bind, List.map_cons, List.map_nil, runClauses, Clause.run, hrows]
  rfl

/-- What holds at the start and is kept by every stage holds at the end of a plan. -/
theorem induction {motive : List Mutation → Progress → Prop} (h : Plan objects ms) {s : Progress}
    (hs : mergeAll g ms = .ok s) (nil : motive [] (.start g))
    (snoc : ∀ front m p s u, Stage objects g front m p s u → motive front s →
      motive (front ++ [m]) u) : motive ms s := by
  induction ms using List.reverseRecOn generalizing s with
  | nil =>
    cases hs
    exact nil
  | append_singleton front m ih =>
    obtain ⟨p, t, u, hstage⟩ := h.stage g
    have hu := hstage.after
    rw [hs] at hu
    cases hu
    exact snoc front m p t s hstage (ih h.before hstage.before)

theorem induction_from {motive : List Mutation → Progress → Prop}
    (h : Plan objects (front ++ back)) {s t : Progress} (hs : mergeAll g front = .ok s)
    (ht : mergeAll g (front ++ back) = .ok t) (start : motive front s)
    (snoc : ∀ front m p s u, Stage objects g front m p s u → motive front s →
      motive (front ++ [m]) u) : motive (front ++ back) t := by
  induction back using List.reverseRecOn generalizing t with
  | nil =>
    rw [List.append_nil, hs] at ht
    cases ht
    rwa [List.append_nil]
  | append_singleton back m ih =>
    rw [← List.append_assoc] at h ht ⊢
    obtain ⟨p, u, v, hstage⟩ := h.stage g
    have hv := hstage.after
    rw [ht] at hv
    cases hv
    exact snoc _ m p u t hstage (ih h.before hstage.before)

theorem continued (h : Plan objects (front ++ back)) {s t : Progress}
    (hs : mergeAll g front = .ok s) (ht : mergeAll g (front ++ back) = .ok t) :
    s.draft.graph.Extends t.draft.graph ∧ ∀ row ∈ s.rows, ∃ row' ∈ t.rows,
      ∀ id k, row.numbered id = some k → row'.numbered id = some k := by
  refine h.induction_from (motive := fun _ t => s.draft.graph.Extends t.draft.graph ∧
    ∀ row ∈ s.rows, ∃ row' ∈ t.rows, ∀ id k, row.numbered id = some k →
      row'.numbered id = some k) hs ht ⟨.refl _, fun row hrow => ⟨row, hrow, fun _ _ hk => hk⟩⟩ ?_
  intro _ m p t u hstage ⟨hgraph, hrows⟩
  refine ⟨hgraph.trans hstage.merged.grows.graph, ?_⟩
  intro row hrow
  obtain ⟨row', hrow', hkeeps⟩ := hrows row hrow
  obtain ⟨next, hnext, hfollows⟩ := hstage.merged.continued row' hrow'
  exact ⟨next, hnext, fun id k hk => hfollows.keeps id k (hkeeps id k hk)⟩

end Plan

variable {rootLabel : String} {document : Json}

theorem import_progress {g g' : Graph} {report : Import} (hdoc : document.WellFormed)
    (h : importDocument memoryStore rootLabel document g = (.ok report, g')) :
    ∃ b t, compile rootLabel document = .ok b ∧ Plan document.objects b.mutations.toList ∧
      mergeAll g b.mutations.toList = .ok t ∧ t.draft.graph = g' ∧
      report = ⟨b.size - b.edgeCount, b.edgeCount, t.draft.counters.lines⟩ := by
  obtain ⟨b, hcompile, hempty | ⟨hne, hvalues⟩⟩ := import_ok h
  · have hnil : b.mutations.toList = [] := by simpa [Batch.isEmpty] using hempty
    rw [import_empty hcompile hempty] at h
    cases h
    refine ⟨b, .start g, hcompile, plan_of_compile hdoc hcompile, ?_, rfl, rfl⟩
    rw [hnil]
    rfl
  · have hplan := plan_of_compile hdoc hcompile
    obtain ⟨patterns, hpatterns, hparse⟩ := parse_render hplan.compiled hne hvalues
    obtain ⟨t, hrun, _⟩ := hplan.mergeAll_spec g
    have heq : b.mutations.toList.filterMap Mutation.pattern? = patterns :=
      List.map_injective_iff.mpr (Option.some_injective _) (hplan.map_pattern? ▸ hpatterns)
    subst heq
    have htext := runText_merges hparse (patterns_ne_nil hpatterns hne) hrun
    rw [import_of_runText hcompile hne htext] at h
    cases h
    exact ⟨b, t, hcompile, hplan, hrun, rfl, rfl⟩

end FieldGraph
