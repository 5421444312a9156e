import FieldGraph.Proofs.Ingest.Merging

/-!
# Running compiled statements

What the rows of a query have reached after some statements, and what a whole list of statements
makes of them. A row that embeds the statements before a statement binds exactly their numbers, so
that a node which is described for the first time is not bound yet.
-/
namespace FieldGraph

/-- The row binds the numbers of the statements to nodes in which all of them hold. -/
structure Row.Embeds (front : List Mutation) (g : Graph) (row : Row) : Prop where
  nodes : row.Nodes g
  bound : ∀ id, (row.numbered id).isSome = true ↔ ∃ n ∈ front, id ∈ n.ids
  holds : ∀ nodeOf, row.Agrees nodeOf → ∀ n ∈ front, n.HoldsIn g nodeOf

/-- However the statements hold, the next one can hold with the same nodes. -/
def Mutation.Continues (g : Graph) (front : List Mutation) (m : Mutation) : Prop :=
  ∀ nodeOf, (∀ n ∈ front, n.HoldsIn g nodeOf) →
    ∃ next, (∀ n ∈ front, ∀ id ∈ n.ids, next id = nodeOf id) ∧ m.HoldsIn g next

def SaturatedAfter (g : Graph) (front : List Mutation) : List Mutation → Prop
  | [] => True
  | m :: ms => m.Continues g front ∧ SaturatedAfter g (front ++ [m]) ms

/-- The graph has everything that the statements ask for, in whatever way the statements before
hold in it. -/
def Saturated (g : Graph) (ms : List Mutation) : Prop := SaturatedAfter g [] ms

structure Reached (front : List Mutation) (g : Graph) (rows : List Row) : Prop where
  nonempty : rows ≠ []
  embeds : ∀ row ∈ rows, row.Embeds front g

/-- The rows are all the ways in which the statements hold. -/
def Complete (front : List Mutation) (g : Graph) (rows : List Row) : Prop :=
  ∀ nodeOf, (∀ n ∈ front, n.HoldsIn g nodeOf) → ∃ row ∈ rows, row.Agrees nodeOf

variable {m : Mutation} {front ms : List Mutation} {d e : Draft} {g : Graph} {row row' : Row}
  {rows found : List Row} {objects : List (List (String × Json))}

theorem Row.Embeds.follows (h : row.Embeds front d.graph) (hgrows : d.Grows e)
    (hfollows : Row.Follows m e.graph row row') : row'.Embeds (front ++ [m]) e.graph := by
  refine ⟨hfollows.nodes, fun id => ?_, fun nodeOf hagrees n hn => ?_⟩
  · rw [hfollows.bound, h.bound]
    simp [or_and_right, exists_or]
  · rcases List.mem_append.mp hn with hn | hn
    · exact (h.holds nodeOf (hfollows.agrees hagrees) n hn).mono hgrows.graph
    · rw [List.mem_singleton.mp hn]
      exact hfollows.holds nodeOf hagrees

theorem Row.Embeds.numbered_eq_none (h : row.Embeds front g) {id : Nat}
    (hid : ∀ n ∈ front, id ∉ n.ids) : row.numbered id = none := by
  rw [← Option.not_isSome_iff_eq_none, h.bound]
  rintro ⟨n, hn, hmem⟩
  exact hid n hn hmem

theorem Row.Embeds.exists_numbered (h : row.Embeds front g) {n : Mutation} (hn : n ∈ front)
    {id : Nat} (hid : id ∈ n.ids) : ∃ k, row.numbered id = some k :=
  Option.isSome_iff_exists.mp ((h.bound id).mpr ⟨n, hn, hid⟩)

theorem reached_nil (g : Graph) : Reached [] g [[]] := by
  refine ⟨by simp, fun row hrow => ?_⟩
  rw [List.mem_singleton.mp hrow]
  exact ⟨Row.nodes_nil g, fun id => by simp [Row.numbered, Row.node?, Row.get?], by simp⟩

theorem complete_nil (g : Graph) : Complete [] g [[]] := by
  intro nodeOf _
  refine ⟨[], by simp, fun id k hk => ?_⟩
  cases hk

theorem Reached.merged (h : Reached front d.graph rows) (hm : Merged m d e rows found) :
    Reached (front ++ [m]) e.graph found := by
  refine ⟨?_, fun row' hrow' => ?_⟩
  · obtain ⟨row, hrow⟩ := List.exists_mem_of_ne_nil rows h.nonempty
    obtain ⟨row', hrow', _⟩ := hm.continued row hrow
    exact List.ne_nil_of_mem hrow'
  · obtain ⟨row, hrow, hfollows⟩ := hm.follows row' hrow'
    exact (h.embeds row hrow).follows hm.grows hfollows

/-- A merge on all the ways in which the statements before hold adds nothing exactly if the
statement continues them. -/
theorem Reached.continues (h : Reached front d.graph rows) (hcomplete : Complete front d.graph rows)
    (hm : Merged m d e rows found) :
    (e = d ∧ m.Continues d.graph front ∧ Complete (front ++ [m]) d.graph found) ∨
      (d.graph.size < e.graph.size ∧ ¬m.Continues d.graph front) := by
  rcases hm.added with ⟨rfl, hways⟩ | ⟨hsize, row, hrow, hnot⟩
  · refine .inl ⟨rfl, fun nodeOf hfront => ?_, fun nodeOf hall => ?_⟩
    · obtain ⟨row, hrow, hagrees⟩ := hcomplete nodeOf hfront
      obtain ⟨row', _, hfollows⟩ := hm.continued row hrow
      refine ⟨row'.assignment, fun n hn id hid => ?_, hfollows.holds _ row'.agrees_assignment⟩
      -- The numbers before are bound in both rows, to the same nodes.
      obtain ⟨k, hk⟩ := (h.embeds row hrow).exists_numbered hn hid
      rw [hagrees id k hk, row'.agrees_assignment id k (hfollows.keeps id k hk)]
    · obtain ⟨row, hrow, hagrees⟩ := hcomplete nodeOf
        fun n hn => hall n (List.mem_append_left _ hn)
      exact hways row hrow nodeOf hagrees (hall m (by simp))
  · refine .inr ⟨hsize, fun hcontinues => ?_⟩
    have hembeds := h.embeds row hrow
    obtain ⟨next, hsame, hholds⟩ := hcontinues row.assignment
      (hembeds.holds _ row.agrees_assignment)
    refine hnot next (fun id k hk => ?_) hholds
    obtain ⟨n, hn, hid⟩ := (hembeds.bound id).mp (by rw [hk]; rfl)
    rw [hsame n hn id hid, row.agrees_assignment id k hk]

/-- The statements of a document run without a fault. They end in rows in which all of them hold,
and if they started with all ways in which the statements before hold, then they add to the graph
exactly if it was not saturated. -/
theorem runClauses_merges (front : List Mutation) {patterns : List Pattern} {s : Progress}
    (hobjects : Json.DistinctKeys objects)
    (hms : ∀ m ∈ ms, m.Compiled objects) (hpatterns : ms.map Mutation.pattern? = patterns.map some)
    (hfresh : Mutation.DescribedFirst (front ++ ms))
    (hreached : Reached front s.draft.graph s.rows) :
    ∃ t, runClauses .write s (patterns.map .merge) = .ok t ∧
      Reached (front ++ ms) t.draft.graph t.rows ∧
      (Complete front s.draft.graph s.rows →
        (t.draft = s.draft ∧ SaturatedAfter s.draft.graph front ms) ∨
          (s.draft.graph.size < t.draft.graph.size ∧
            ¬SaturatedAfter s.draft.graph front ms)) := by
  induction ms generalizing front patterns s with
  | nil =>
    have hnil : patterns = [] := by simpa using hpatterns.symm
    subst hnil
    exact ⟨s, rfl, by simpa using hreached, fun _ => .inl ⟨rfl, trivial⟩⟩
  | cons m ms ih =>
    cases patterns with
    | nil => cases hpatterns
    | cons p patterns =>
      rw [List.map_cons, List.map_cons, List.cons.injEq] at hpatterns
      obtain ⟨hp, hrest⟩ := hpatterns
      -- Rows bind the numbers of the statements before only, so a described node can be created.
      have hnew : ∀ id ∈ m.described, ∀ n ∈ front, id ∉ n.ids := fun id hid n hn =>
        (List.pairwise_append.mp hfresh).2.2 n hn m List.mem_cons_self id hid
      obtain ⟨e, found, hrows, hmerged⟩ := mergeRows_spec (hms m List.mem_cons_self) hobjects hp
        (fun row hrow => (hreached.embeds row hrow).nodes)
        (fun row hrow id hid => (hreached.embeds row hrow).numbered_eq_none (hnew id hid))
      have hnext := hreached.merged hmerged
      obtain ⟨t, hrun, hreached', hadded⟩ := ih (front ++ [m])
        (s := { s with draft := e, rows := found })
        (fun n hn => hms n (List.mem_cons_of_mem _ hn)) hrest (by simpa using hfresh) hnext
      refine ⟨t, ?_, by simpa using hreached', fun hcomplete => ?_⟩
      · simp only [List.map_cons, runClauses, Clause.run, hrows, bind, Except.bind]
        exact hrun
      · rcases hreached.continues hcomplete hmerged with ⟨rfl, hcontinues, hall⟩ | ⟨hsize, hnot⟩
        · rcases hadded hall with ⟨heq, hsaturated⟩ | ⟨hsize, hnot⟩
          · exact .inl ⟨heq, hcontinues, hsaturated⟩
          · exact .inr ⟨hsize, fun hsaturated => hnot hsaturated.2⟩
        · have hgrows := runClauses_grows hrun
          exact .inr ⟨Nat.lt_of_lt_of_le hsize hgrows.graph.size_le,
            fun hsaturated => hnot hsaturated.1⟩

end FieldGraph
