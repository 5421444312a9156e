import FieldGraph.Proofs.Ingest.Creating
import FieldGraph.Proofs.Ingest.Stages

/-!
# How much an import creates

A merge creates something for each row in which its statement does not hold yet. No two of these
rows can stand for the same nodes, since what is created for the first is found for the second.
Every row lives on until the end of the import, so for each statement there are at most as many such
rows as there are ways in which the whole document holds in the graph afterwards.
-/
namespace FieldGraph

theorem length_le_of_apart {α β : Type} [Nonempty β] (R : α → β → Prop) {as : List α} {bs : List β}
    (hsome : ∀ a ∈ as, ∃ b ∈ bs, R a b)
    (hapart : as.Pairwise fun a a' => ∀ b, R a b → ¬R a' b) :
    as.length ≤ bs.length := by
  choose! f hmem hR using hsome
  have hnodup : (as.map f).Nodup := by
    refine List.pairwise_map.mpr (hapart.imp_of_mem ?_)
    intro a a' ha ha' hnot heq
    exact hnot (f a) (hR a ha) (heq ▸ hR a' ha')
  have hsubset : as.map f ⊆ bs := by
    intro b hb
    obtain ⟨a, ha, rfl⟩ := List.mem_map.mp hb
    exact hmem a ha
  simpa using hnodup.length_le_of_subset hsubset

def Row.Apart (a b : Row) : Prop := ∀ nodeOf, a.Agrees nodeOf → ¬b.Agrees nodeOf

def mentioned (ms : List Mutation) : Finset Nat := (ms.flatMap Mutation.ids).toFinset

theorem mem_mentioned {ms : List Mutation} {id : Nat} :
    id ∈ mentioned ms ↔ ∃ m ∈ ms, id ∈ m.ids := by
  rw [mentioned, List.mem_toFinset, List.mem_flatMap]

theorem card_mentioned_concat (front : List Mutation) (m : Mutation) :
    (mentioned (front ++ [m])).card =
      (mentioned front).card + (m.ids.toFinset \ mentioned front).card := by
  have hunion : mentioned (front ++ [m]) = m.ids.toFinset ∪ mentioned front := by
    rw [mentioned, mentioned, List.flatMap_append, List.toFinset_append, List.flatMap_singleton,
      Finset.union_comm]
  rw [hunion, ← Finset.card_sdiff_add_card, Nat.add_comm]

theorem Row.Embeds.knows {front : List Mutation} {g : Graph} {row : Row}
    (h : row.Embeds front g) : row.Knows (mentioned front) := by
  intro id
  rw [h.bound, mem_mentioned]

/-- What merging a statement creates, and the rows that come of creating it. -/
structure Made (m : Mutation) (known : Finset Nat) (d e : Draft) (found makers : List Row) :
    Prop where
  mem : ∀ row ∈ makers, row ∈ found
  apart : makers.Pairwise Row.Apart
  fresh : ∀ row ∈ makers, ∀ nodeOf, row.Agrees nodeOf → ¬m.HoldsIn d.graph nodeOf
  nodes : e.graph.nodeCount =
    d.graph.nodeCount + makers.length * (m.ids.toFinset \ known).card
  edges : e.graph.edgeCount = d.graph.edgeCount + makers.length * if m.isEdge then 1 else 0

section

variable {objects : List (List (String × Json))} {m : Mutation} {p : Pattern}
  {known : Finset Nat} {d d₁ e : Draft} {row : Row} {rows found found₁ makers makers₁ : List Row}

theorem Made.nothing (m : Mutation) (known : Finset Nat) (d : Draft) (found : List Row) :
    Made m known d d found [] :=
  ⟨by simp, .nil, by simp, by simp, by simp⟩

theorem Made.append (hfirst : Made m known d d₁ found₁ makers₁) (hgraph : d.graph.Extends d₁.graph)
    (hholds : ∀ row ∈ found₁, ∀ nodeOf, row.Agrees nodeOf → m.HoldsIn d₁.graph nodeOf)
    (hrest : Made m known d₁ e found makers) :
    Made m known d e (found₁ ++ found) (makers₁ ++ makers) := by
  constructor
  · intro row hrow
    rcases List.mem_append.mp hrow with hrow | hrow
    · exact List.mem_append_left _ (hfirst.mem row hrow)
    · exact List.mem_append_right _ (hrest.mem row hrow)
  · refine List.pairwise_append.mpr ⟨hfirst.apart, hrest.apart, ?_⟩
    intro a ha b hb nodeOf hagrees hagrees'
    -- The statement holds for the first row by now, and for the second it did not.
    exact hrest.fresh b hb nodeOf hagrees' (hholds a (hfirst.mem a ha) nodeOf hagrees)
  · intro row hrow nodeOf hagrees hheld
    rcases List.mem_append.mp hrow with hrow | hrow
    · exact hfirst.fresh row hrow nodeOf hagrees hheld
    · exact hrest.fresh row hrow nodeOf hagrees (hheld.mono hgraph)
  · rw [hrest.nodes, hfirst.nodes, List.length_append, Nat.add_mul, Nat.add_assoc]
  · rw [hrest.edges, hfirst.edges, List.length_append, Nat.add_mul, Nat.add_assoc]

theorem mergeRow_made (hm : m.Compiled objects) (hobjects : Json.DistinctKeys objects)
    (hp : m.pattern? = some p) (hrow : row.Nodes d.graph) (hknown : row.Knows known)
    (hfresh : ∀ id ∈ m.described, id ∉ known)
    (h : mergeRow .write p d row = .ok (e, found)) :
    ∃ makers, Made m known d e found makers := by
  rcases mergeRow_cases h with ⟨rfl, _⟩ | ⟨row', hnone, hcreate, rfl⟩
  · exact ⟨[], .nothing m known e found⟩
  · obtain ⟨matched, hmatched, hways⟩ := hm.matches_spec hobjects hp hrow
    rw [hnone] at hmatched
    cases hmatched
    have hunbound : ∀ id ∈ m.described, row.numbered id = none :=
      fun id hid => hknown.eq_none_iff.mpr (hfresh id hid)
    obtain ⟨_, _, hcreate', _, hfollows⟩ := hm.create_spec hobjects hp hrow hunbound
    rw [hcreate] at hcreate'
    cases hcreate'
    obtain ⟨hnodes, hedges⟩ := hm.create_counts hp hrow hknown hfresh hcreate
    refine ⟨[row'], by simp, List.pairwise_singleton _ _, ?_, ?_, ?_⟩
    · intro other hother nodeOf hagrees hheld
      rw [List.mem_singleton.mp hother] at hagrees
      obtain ⟨_, hmem, _⟩ := hways.complete nodeOf (hfollows.agrees hagrees) hheld
      cases hmem
    · rw [hnodes, List.length_singleton, Nat.one_mul]
    · rw [hedges, List.length_singleton, Nat.one_mul]

theorem mergeRows_made (hm : m.Compiled objects) (hobjects : Json.DistinctKeys objects)
    (hp : m.pattern? = some p) (hrows : ∀ row ∈ rows, row.Nodes d.graph)
    (hknown : ∀ row ∈ rows, row.Knows known) (hfresh : ∀ id ∈ m.described, id ∉ known)
    (h : mergeRows .write p d rows = .ok (e, found)) :
    ∃ makers, Made m known d e found makers := by
  induction rows generalizing d found with
  | nil =>
    cases h
    exact ⟨[], .nothing m known _ []⟩
  | cons row rows ih =>
    obtain ⟨⟨d₁, found₁⟩, hrow, h⟩ := bind_eq_ok.mp h
    obtain ⟨⟨d₂, found₂⟩, hrest, h⟩ := bind_eq_ok.mp h
    cases h
    have hnodes := hrows row List.mem_cons_self
    have hunbound : ∀ id ∈ m.described, row.numbered id = none :=
      fun id hid => (hknown row List.mem_cons_self).eq_none_iff.mpr (hfresh id hid)
    obtain ⟨_, _, hrow', hmerged⟩ := mergeRow_spec hm hobjects hp hnodes hunbound
    rw [hrow] at hrow'
    cases hrow'
    have hgraph := hmerged.grows.graph
    obtain ⟨makers₁, hfirst⟩ := mergeRow_made hm hobjects hp hnodes
      (hknown row List.mem_cons_self) hfresh hrow
    obtain ⟨makers₂, hsecond⟩ := ih
      (fun other hother => (hrows other (List.mem_cons_of_mem _ hother)).mono hgraph)
      (fun other hother => hknown other (List.mem_cons_of_mem _ hother)) hrest
    refine ⟨makers₁ ++ makers₂, hfirst.append hgraph ?_ hsecond⟩
    intro row' hrow' nodeOf hagrees
    obtain ⟨_, _, hfollows⟩ := hmerged.follows row' hrow'
    exact hfollows.holds nodeOf hagrees

end

/-- These are all the ways in which the statements hold in the graph, as far as it concerns the
numbers in them. -/
def AllWays (ms : List Mutation) (g : Graph) (ways : List (Nat → Nat)) : Prop :=
  ∀ nodeOf, (∀ m ∈ ms, m.HoldsIn g nodeOf) →
    ∃ way ∈ ways, ∀ m ∈ ms, ∀ id ∈ m.ids, nodeOf id = way id

variable {objects : List (List (String × Json))} {front back ms : List Mutation} {g : Graph}
  {s t : Progress} {ways : List (Nat → Nat)}

theorem Plan.Stage.made {m : Mutation} {p : Pattern} {u : Progress}
    (h : Plan.Stage objects g front m p s u) :
    ∃ makers, Made m (mentioned front) s.draft u.draft u.rows makers := by
  have hfresh : ∀ id ∈ m.described, id ∉ mentioned front := by
    intro id hid hmem
    obtain ⟨n, hn, hmem⟩ := mem_mentioned.mp hmem
    exact h.described hid n hn hmem
  exact mergeRows_made h.compiled h.plan.keys h.pattern
    (fun row hrow => (h.reached.embeds row hrow).nodes)
    (fun row hrow => (h.reached.embeds row hrow).knows) hfresh h.run

/-- A row of any stage is part of a way in which the whole plan holds in the end. -/
theorem Plan.exists_way (h : Plan objects (front ++ back)) (hs : mergeAll g front = .ok s)
    (ht : mergeAll g (front ++ back) = .ok t)
    (hways : AllWays (front ++ back) t.draft.graph ways) {row : Row} (hrow : row ∈ s.rows) :
    ∃ way ∈ ways, row.Agrees way := by
  obtain ⟨row', hrow', hkeeps⟩ := (h.continued hs ht).2 row hrow
  have hembeds := (h.reached ht).embeds row' hrow'
  obtain ⟨way, hway, hsame⟩ := hways row'.assignment (hembeds.holds _ row'.agrees_assignment)
  refine ⟨way, hway, ?_⟩
  intro id k hk
  have hk' := hkeeps id k hk
  obtain ⟨m, hm, hid⟩ := (hembeds.bound id).mp (by rw [hk']; rfl)
  rw [← hsame m hm id hid]
  exact row'.agrees_assignment id k hk'

theorem Plan.length_makers_le (h : Plan objects (front ++ back)) (hs : mergeAll g front = .ok s)
    (ht : mergeAll g (front ++ back) = .ok t)
    (hways : AllWays (front ++ back) t.draft.graph ways) {makers : List Row}
    (hmakers : ∀ row ∈ makers, row ∈ s.rows) (hapart : makers.Pairwise Row.Apart) :
    makers.length ≤ ways.length := by
  apply length_le_of_apart Row.Agrees _ hapart
  intro row hrow
  exact h.exists_way hs ht hways (hmakers row hrow)

/-- At every stage, each way accounts for at most one node for each number so far, and for at most
one edge for each edge statement so far. -/
theorem Plan.counts_le (h : Plan objects (front ++ back)) (hs : mergeAll g front = .ok s)
    (ht : mergeAll g (front ++ back) = .ok t)
    (hways : AllWays (front ++ back) t.draft.graph ways) :
    s.draft.graph.nodeCount ≤ g.nodeCount + ways.length * (mentioned front).card ∧
      s.draft.graph.edgeCount ≤ g.edgeCount + ways.length * front.countP Mutation.isEdge := by
  induction front using List.reverseRecOn generalizing back s with
  | nil =>
    cases hs
    exact ⟨Nat.le_add_right _ _, Nat.le_add_right _ _⟩
  | append_singleton front m ih =>
    obtain ⟨p, r, u, hstage⟩ := h.before.stage g
    have hu := hstage.after
    rw [hs] at hu
    cases hu
    obtain ⟨makers, hmade⟩ := hstage.made
    have hlength := h.length_makers_le hs ht hways hmade.mem hmade.apart
    rw [List.append_assoc] at h ht hways
    obtain ⟨hnodes, hedges⟩ := ih h hstage.before ht hways
    constructor
    · have hnew := Nat.mul_le_mul_right (m.ids.toFinset \ mentioned front).card hlength
      rw [hmade.nodes, card_mentioned_concat, Nat.mul_add]
      omega
    · have hnew := Nat.mul_le_mul_right (if m.isEdge then 1 else 0) hlength
      rw [hmade.edges, List.countP_append, List.countP_singleton, Nat.mul_add]
      omega

variable {rootLabel : String} {document : Json}

/-- For each way in which the document holds in the graph afterwards, an import creates at most as
many nodes as the document has objects, and at most as many edges as there are edge statements. If
it holds in one way only, these are bounds on all that the import creates. -/
theorem created_within_ways {g g' : Graph} {report : Import} (hdoc : document.WellFormed)
    (h : importDocument memoryStore rootLabel document g = (.ok report, g')) :
    ∃ b, compile rootLabel document = .ok b ∧ b.nextId = document.objects.length ∧
      report.relationships = b.edgeCount ∧
      ∀ ways, AllWays b.mutations.toList g' ways →
        g'.nodeCount ≤ g.nodeCount + ways.length * document.objects.length ∧
        g'.edgeCount ≤ g.edgeCount + ways.length * report.relationships := by
  obtain ⟨b, t, hcompile, hplan, ht, rfl, rfl⟩ := import_progress hdoc h
  have hids := nextId_of_compile hcompile
  refine ⟨b, hcompile, hids, rfl, ?_⟩
  intro ways hways
  rw [← List.append_nil b.mutations.toList] at hplan hways
  obtain ⟨hnodes, hedges⟩ := hplan.counts_le ht (by rwa [List.append_nil]) hways
  have hbelow : mentioned b.mutations.toList ⊆ Finset.range b.nextId := by
    intro id hid
    obtain ⟨m, hm, hid⟩ := mem_mentioned.mp hid
    exact Finset.mem_range.mpr ((invariant_of_compile hcompile).below m hm id hid)
  have hcard : (mentioned b.mutations.toList).card ≤ document.objects.length := by
    rw [← hids, ← Finset.card_range b.nextId]
    exact Finset.card_le_card hbelow
  refine ⟨hnodes.trans ?_, hedges⟩
  exact Nat.add_le_add_left (Nat.mul_le_mul_left _ hcard) _

theorem user_created_within_way :
    ∃ report g' way, importDocument memoryStore defaultLabel userDocument .empty =
        (.ok report, g') ∧
      (∃ b, compile defaultLabel userDocument = .ok b ∧ AllWays b.mutations.toList g' [way]) ∧
      g'.nodeCount ≤ 2 ∧ g'.edgeCount ≤ 1 := by
  have hdoc : userDocument.WellFormed := by
    simp [userDocument, Json.WellFormed, Json.WellFormedFields]
  obtain ⟨g', himport, hedges⟩ :
      ∃ g', importDocument memoryStore defaultLabel userDocument .empty =
          (.ok ⟨1, 1, ["Nodes created: 2", "Properties set: 1", "Relationships created: 1"]⟩, g') ∧
        g'.edges = #[⟨0, 0, 1, "user"⟩] :=
    ⟨_, eq_of_toOption_fst (by decide +kernel), by decide +kernel⟩
  obtain ⟨b, hcompile, _, _, hbounds⟩ := created_within_ways hdoc himport
  have hlist : b.mutations.toList =
      [.mergeNode 1 "User" [("name", .string "Ann")], .mergeEdge 1 "user" 0] := by
    cases hcompile
    rfl
  have hone : AllWays b.mutations.toList g' [fun id => if id = 1 then 0 else 1] := by
    rw [hlist]
    intro nodeOf hall
    obtain ⟨e, he, _, hsource, htarget⟩ := hall (.mergeEdge 1 "user" 0) (by simp)
    rw [hedges, List.mem_toArray, List.mem_singleton] at he
    subst he
    refine ⟨_, List.mem_singleton_self _, ?_⟩
    simp [Mutation.ids, ← hsource, ← htarget]
  exact ⟨_, g', _, himport, ⟨b, hcompile, hone⟩, hbounds _ hone⟩

/-- Three posts of one number, and an object around a post with nothing but that number. -/
def crowdedDocument : Json :=
  .array [.object [("id", .ofNat 1), ("a", .ofNat 1)],
    .object [("id", .ofNat 1), ("a", .ofNat 2)],
    .object [("id", .ofNat 1), ("a", .ofNat 3)],
    .object [("post", .object [("id", .ofNat 1)])]]

/-- The last post is taken for all three others, and each of them gets a node around it. -/
theorem crowded_posts_exceed_document :
    crowdedDocument.WellFormed ∧ ∃ report g',
      importDocument memoryStore defaultLabel crowdedDocument .empty = (.ok report, g') ∧
      crowdedDocument.objects.length = 5 ∧ g'.nodeCount = 6 ∧
      report.relationships = 1 ∧ g'.edgeCount = 3 := by
  obtain ⟨g', himport, hnodes, hedges⟩ :
      ∃ g', importDocument memoryStore defaultLabel crowdedDocument .empty = (.ok
          ⟨4, 1, ["Nodes created: 6", "Properties set: 6", "Relationships created: 3"]⟩, g') ∧
        g'.nodeCount = 6 ∧ g'.edgeCount = 3 :=
    ⟨_, eq_of_toOption_fst (by decide +kernel), by decide +kernel⟩
  refine ⟨?_, _, g', himport, rfl, hnodes, rfl, hedges⟩
  simp [crowdedDocument, Json.ofNat, Json.ofInt, IntegerRange, Json.WellFormed,
    Json.WellFormedItems, Json.WellFormedFields]

end FieldGraph
