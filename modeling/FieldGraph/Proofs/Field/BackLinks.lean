import FieldGraph.Proofs.Ingest.Labels

/-!
# The way back from an answer

An answer is linked to its post by an edge that is named after answers. The schema has a field that
leads from an answer back to its post, but it asks for an edge that is named after comments. Such
edges leave comments only, so the field finds nothing, whatever was imported. With the other name it
would find the post.
-/
namespace FieldGraph

variable {g : Graph}

/-- No edge of a type leaves a node that has the label of another one. -/
theorem Graph.EdgesLabelled.related_eq_nil (hg : g.EdgesLabelled) {id : Nat} {n : Node}
    (hn : g.node? id = some n) {edgeType : String} (hlabel : n.label ≠ some (capitalize edgeType))
    (targetLabel : Option String) : g.related id .outgoing (some edgeType) targetLabel = [] := by
  refine List.eq_nil_iff_forall_not_mem.mpr fun hop hhop => ?_
  obtain ⟨e, he, hleaves, htype, _⟩ := Graph.mem_neighbors.mp (List.mem_of_mem_filter hhop)
  obtain ⟨m, hm, hmlabel⟩ := hg e he
  have hsource : e.source = id := by simpa [Edge.leaves] using hleaves
  have hsame : e.edgeType = edgeType := by simpa using htype
  rw [hsource, hn] at hm
  cases hm
  exact hlabel (hsame ▸ hmlabel)

/-- Along an edge that leads to a node with a label, that node is related to the source again. -/
theorem Graph.related_back {id : Nat} {n : Node} (hn : g.node? id = some n)
    {edgeType label : String} (hlabel : n.label = some label) {hop : Nat × Nat}
    (hhop : hop ∈ g.related id .incoming (some edgeType) none) :
    ∃ back ∈ g.related hop.2 .outgoing (some edgeType) (some label), back.2 = id := by
  obtain ⟨e, he, hleaves, htype, rfl⟩ := Graph.mem_neighbors.mp (List.mem_of_mem_filter hhop)
  have htarget : e.target = id := by simpa [Edge.leaves] using hleaves
  have hback : e.otherEnd e.source = id := by rw [Edge.otherEnd, if_pos rfl, htarget]
  have hlabelled : g.labelled id label = true := by
    rw [Graph.labelled, hn, Option.any_some, Node.hasLabel, hlabel, beq_self_eq_true]
  refine ⟨(e.id, e.otherEnd e.source), ?_, hback⟩
  dsimp only
  rw [Edge.otherEnd_of_incoming hleaves]
  refine List.mem_filter.mpr ⟨Graph.mem_neighbors.mpr ⟨e, he, ?_, htype, rfl⟩, ?_⟩
  · simp [Edge.leaves]
  · rw [hback, Option.all_some, hlabelled]

section

variable {id : Nat}

theorem resolve_children (hsize : g.nodeCount ≤ 0x8000000000000000)
    (hid : id < 0x8000000000000000) {edgeType : String}
    (htype : isPlainIdentifier edgeType = true) (typeName : Option String)
    (arguments : Arguments) :
    (Schema.children .many edgeType).resolve memoryStore (some ⟨id, typeName⟩) arguments g =
      (.ok (.references ((g.related id .incoming edgeType none).map
        fun hop => ⟨hop.2, none⟩)), g) :=
  Resolver.resolve_relation ⟨by simpa using htype, by simp⟩ hsize hid typeName arguments

theorem resolve_parent (hsize : g.nodeCount ≤ 0x8000000000000000)
    (hid : id < 0x8000000000000000) {edgeType label : String}
    (htype : isPlainIdentifier edgeType = true) (hlabel : isPlainIdentifier label = true)
    (typeName : Option String) (arguments : Arguments) :
    (Schema.parents .single edgeType label).resolve memoryStore (some ⟨id, typeName⟩) arguments g =
      (.ok (.reference ((g.related id .outgoing edgeType label).map
        fun hop => ⟨hop.2, none⟩).head?), g) :=
  Resolver.resolve_relation ⟨by simpa using htype, by simpa using hlabel⟩ hsize hid typeName
    arguments

theorem parent_found (hsize : g.nodeCount ≤ 0x8000000000000000) (hid : id < 0x8000000000000000)
    {edgeType label : String} (htype : isPlainIdentifier edgeType = true)
    (hlabel : isPlainIdentifier label = true) {hop : Nat × Nat}
    (hhop : hop ∈ g.related id .outgoing edgeType label) (typeName : Option String)
    (arguments : Arguments) :
    ∃ found, (Schema.parents .single edgeType label).resolve memoryStore (some ⟨id, typeName⟩)
        arguments g = (.ok (.reference (some found)), g) ∧ g.labelled found.id label = true := by
  rw [resolve_parent hsize hid htype hlabel]
  cases hrelated : g.related id .outgoing edgeType label with
  | nil =>
    rw [hrelated] at hhop
    cases hhop
  | cons first others =>
    have hfirst : first ∈ g.related id .outgoing edgeType label := by simp [hrelated]
    exact ⟨⟨first.2, none⟩, rfl, by simpa using (List.mem_filter.mp hfirst).2⟩

end

/-- Of a graph that was made by imports, the field that is to lead from an answer to its post finds
nothing, for every answer of every post. Along the edge by which the answers of the post are found
there is a post for each of them. Node numbers are sent as 64-bit integers, which are enough for any
graph held in memory. -/
theorem answers_find_no_post (h : g.Imported) (hsize : g.nodeCount ≤ 0x8000000000000000)
    {forth back : FieldDef} (hforth : Schema.dataset.field "Post" "answers" = .ok forth)
    (hback : Schema.dataset.field "Answer" "answers" = .ok back) {id : Nat} {post : Node}
    (hpost : g.node? id = some post) (hlabel : post.label = some "Post")
    (typeName : Option String) (arguments : Arguments) :
    back.fieldType = .object "Post" ∧
      ∃ answers, forth.resolver.resolve memoryStore (some ⟨id, typeName⟩) arguments g =
          (.ok (.references answers), g) ∧
        ∀ a ∈ answers, ∀ given,
          back.resolver.resolve memoryStore (some a) given g = (.ok (.reference none), g) ∧
          ∃ found, (Schema.parents .single "answer" "Post").resolve memoryStore (some a) given g =
            (.ok (.reference (some found)), g) ∧ g.labelled found.id "Post" = true := by
  cases hforth
  cases hback
  have hid : id < 0x8000000000000000 := Nat.lt_of_lt_of_le (Graph.node?_lt hpost) hsize
  refine ⟨rfl, _, resolve_children hsize hid (by decide) typeName arguments, ?_⟩
  intro a ha given
  obtain ⟨hop, hhop, rfl⟩ := List.mem_map.mp ha
  have hanswer : hop.2 < 0x8000000000000000 :=
    Nat.lt_of_lt_of_le (Graph.related_lt hhop).2 hsize
  have hdeclares : (Schema.children .many "answer").Declares "Answer" := by decide
  obtain ⟨n, hn, hnlabel⟩ := related_labelled h.edges_labelled hdeclares hhop
  constructor
  · have hnone : g.related hop.2 .outgoing "comment" "Post" = [] :=
      h.edges_labelled.related_eq_nil hn (by rw [hnlabel]; decide) "Post"
    refine (resolve_parent hsize hanswer (by decide) (by decide) none given).trans ?_
    rw [hnone]
    rfl
  · obtain ⟨back, hback, _⟩ := Graph.related_back hpost hlabel hhop
    exact parent_found hsize hanswer (by decide) (by decide) hback none given

def answeredPost : Json :=
  .object [("title", .string "a"), ("answers", .array [.object [("body", .string "b")]])]

theorem imported_answeredPost :
    ∃ g : Graph, g.Imported ∧ g.nodeCount = 2 ∧ (g.node? 0).bind Node.label = some "Post" ∧
      g.related 0 .incoming "answer" none = [(0, 1)] ∧
      g.related 1 .outgoing "comment" "Post" = [] := by
  have hdoc : answeredPost.WellFormed := by
    simp [answeredPost, Json.WellFormed, Json.WellFormedItems, Json.WellFormedFields]
  exact ⟨_, Graph.Imported.empty.next defaultLabel hdoc, by decide +kernel⟩

theorem answeredPost_finds_no_post :
    ∃ g : Graph, g.Imported ∧ ∃ answers, answers = [⟨1, none⟩] ∧
      (Schema.children .many "answer").resolve memoryStore (some ⟨0, none⟩) [] g =
        (.ok (.references answers), g) ∧
      ∀ a ∈ answers,
        (Schema.parents .single "comment" "Post").resolve memoryStore (some a) [] g =
          (.ok (.reference none), g) ∧
        ∃ found, (Schema.parents .single "answer" "Post").resolve memoryStore (some a) [] g =
          (.ok (.reference (some found)), g) ∧ g.labelled found.id "Post" = true := by
  obtain ⟨g, himported, hcount, hpost, hanswers, _⟩ := imported_answeredPost
  obtain ⟨post, hnode, hlabel⟩ := Option.bind_eq_some_iff.mp hpost
  have hsize : g.nodeCount ≤ 0x8000000000000000 := by
    rw [hcount]
    decide
  obtain ⟨_, answers, hforth, hall⟩ :=
    answers_find_no_post himported hsize rfl rfl hnode hlabel none []
  have hresolve := @resolve_children g 0 hsize (by decide) "answer" (by decide) none []
  rw [hanswers] at hresolve
  have hsame := hforth.symm.trans hresolve
  cases hsame
  exact ⟨g, himported, _, rfl, hforth, fun a ha => hall a ha []⟩

/-- The field does not lead from every answer of every post to a post. -/
theorem answer_without_way_back :
    ¬∀ g : Graph, g.Imported → ∀ forth back, Schema.dataset.field "Post" "answers" = .ok forth →
      Schema.dataset.field "Answer" "answers" = .ok back →
      ∀ id post, g.node? id = some post → post.label = some "Post" →
      ∀ answers, forth.resolver.resolve memoryStore (some ⟨id, none⟩) [] g =
        (.ok (.references answers), g) → ∀ a ∈ answers,
      ∃ found, back.resolver.resolve memoryStore (some a) [] g =
        (.ok (.reference (some found)), g) ∧ g.labelled found.id "Post" = true := by
  intro hclaim
  obtain ⟨g, himported, hcount, hpost, hanswers, hnone⟩ := imported_answeredPost
  obtain ⟨post, hnode, hlabel⟩ := Option.bind_eq_some_iff.mp hpost
  have hsize : g.nodeCount ≤ 0x8000000000000000 := by
    rw [hcount]
    decide
  have hforth := @resolve_children g 0 hsize (by decide) "answer" (by decide) none []
  have hback := @resolve_parent g 1 hsize (by decide) "comment" "Post" (by decide) (by decide)
    none []
  rw [hanswers] at hforth
  rw [hnone] at hback
  obtain ⟨found, hfound, _⟩ := hclaim g himported _ _ rfl rfl 0 post hnode hlabel _ hforth
    ⟨1, none⟩ List.mem_cons_self
  have hsame := hback.symm.trans hfound
  cases hsame

end FieldGraph
