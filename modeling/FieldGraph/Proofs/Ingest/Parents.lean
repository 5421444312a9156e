import FieldGraph.Proofs.Ingest.Creating
import FieldGraph.Proofs.Ingest.Stages

/-!
# Parents without properties

An object without properties has no statement of its own, so its node is settled by the first edge
to it. That is a new node, which is blank, unless the child had an edge of that type before: then
the other end of that edge is taken for the parent.
-/
namespace FieldGraph

/-- Every edge that is not an old one goes to a blank node or to one that was taken. -/
def Aimed (old : Graph) (taken : Nat → Prop) (g : Graph) : Prop :=
  ∀ x ∈ g.edges, x ∈ old.edges ∨ g.Blank x.target ∨ taken x.target

section

variable {d e : Draft} {row : Row} {rows found : List Row} {old : Graph} {taken : Nat → Prop}
  {child parent : Nat} {edgeType : String}

theorem mergeRow_aimed (hrow : row.Nodes d.graph) (hne : child ≠ parent)
    (hchild : (row.numbered child).isSome = true)
    (htaken : ∀ k, row.numbered parent = some k → taken k) (hd : Aimed old taken d.graph)
    (h : mergeRow .write (.link child edgeType parent) d row = .ok (e, found)) :
    Aimed old taken e.graph ∧ ∀ row' ∈ found, ∀ k, row'.numbered parent = some k →
      e.graph.Blank k ∨ taken k ∨ ∃ y ∈ old.edges, y.edgeType = edgeType ∧
        row.numbered child = some y.source ∧ y.target = k := by
  rcases mergeRow_cases h with ⟨rfl, _, hmatches⟩ | ⟨row', _, hcreate, rfl⟩
  · obtain ⟨_, hmatches', hways⟩ := matches_mergeEdge hrow child parent edgeType
    rw [hmatches] at hmatches'
    cases hmatches'
    refine ⟨hd, ?_⟩
    intro row' hrow' k hk
    have hfollows := hways.follows row' hrow'
    obtain ⟨y, hy, htype, hsource, htarget⟩ := hfollows.holds _ row'.agrees_assignment
    obtain ⟨c, hc⟩ := Option.isSome_iff_exists.mp hchild
    have hc' := row'.agrees_assignment child c (hfollows.keeps child c hc)
    have hk' := row'.agrees_assignment parent k hk
    rw [hc'] at hsource
    rw [hk'] at htarget
    rcases hd y hy with hold | hblank | htook
    · exact .inr (.inr ⟨y, hold, htype, by rw [hc, hsource], htarget⟩)
    · exact .inl (htarget ▸ hblank)
    · exact .inr (.inl (htarget ▸ htook))
  · obtain ⟨k, l, hedges, hparent, hcases⟩ := Pattern.create_link hrow hne hcreate
    have hgraph := (Pattern.create_grows hcreate).graph
    have hl : e.graph.Blank l ∨ taken l := by
      rcases hcases with hbound | hblank
      · exact .inr (htaken l hbound)
      · exact .inl hblank
    constructor
    · intro x hx
      rw [hedges] at hx
      rcases Array.mem_push.mp hx with hx | rfl
      · rcases hd x hx with hold | hblank | htook
        · exact .inl hold
        · exact .inr (.inl (hblank.mono hgraph))
        · exact .inr (.inr htook)
      · exact .inr hl
    · intro other hother j hj
      rw [List.mem_singleton.mp hother, hparent] at hj
      cases hj
      rcases hl with hblank | htook
      · exact .inl hblank
      · exact .inr (.inl htook)

/-- New edges to a parent go to blank nodes or to what the rows had for it. In the rows after the
merge the parent may also be the end of an old edge from the child. -/
theorem mergeRows_aimed (hrows : ∀ row ∈ rows, row.Nodes d.graph) (hne : child ≠ parent)
    (hchild : ∀ row ∈ rows, (row.numbered child).isSome = true)
    (htaken : ∀ row ∈ rows, ∀ k, row.numbered parent = some k → taken k)
    (hd : Aimed old taken d.graph)
    (h : mergeRows .write (.link child edgeType parent) d rows = .ok (e, found)) :
    Aimed old taken e.graph ∧ ∀ row' ∈ found, ∀ k, row'.numbered parent = some k →
      e.graph.Blank k ∨ taken k ∨ ∃ row ∈ rows, ∃ y ∈ old.edges, y.edgeType = edgeType ∧
        row.numbered child = some y.source ∧ y.target = k := by
  induction rows generalizing d found with
  | nil =>
    cases h
    exact ⟨hd, by simp⟩
  | cons row rows ih =>
    obtain ⟨⟨d₁, found₁⟩, hrow, h⟩ := bind_eq_ok.mp h
    obtain ⟨⟨d₂, found₂⟩, hrest, h⟩ := bind_eq_ok.mp h
    cases h
    obtain ⟨hd₁, hfirst⟩ := mergeRow_aimed (hrows row List.mem_cons_self) hne
      (hchild row List.mem_cons_self) (htaken row List.mem_cons_self) hd hrow
    have hgraph := (mergeRow_grows hrow).graph
    obtain ⟨he, hothers⟩ := ih
      (fun other hother => (hrows other (List.mem_cons_of_mem _ hother)).mono hgraph)
      (fun other hother => hchild other (List.mem_cons_of_mem _ hother))
      (fun other hother => htaken other (List.mem_cons_of_mem _ hother)) hd₁ hrest
    refine ⟨he, ?_⟩
    intro row' hrow' k hk
    rcases List.mem_append.mp hrow' with hrow' | hrow'
    · rcases hfirst row' hrow' k hk with hblank | htook | hend
      · exact .inl (hblank.mono (mergeRows_grows hrest).graph)
      · exact .inr (.inl htook)
      · exact .inr (.inr ⟨row, List.mem_cons_self, hend⟩)
    · rcases hothers row' hrow' k hk with hblank | htook | ⟨other, hother, hend⟩
      · exact .inl hblank
      · exact .inr (.inl htook)
      · exact .inr (.inr ⟨other, List.mem_cons_of_mem _ hother, hend⟩)

end

/-- The node is the end of an edge that the first child of the parent had, with the type of its edge
to the parent, before that edge was merged. -/
def Adopted (g : Graph) (front : List Mutation) (parent id : Nat) : Prop :=
  ∃ before child edgeType after s, front = before ++ .mergeEdge child edgeType parent :: after ∧
    (∀ m ∈ before, parent ∉ m.ids) ∧ mergeAll g before = .ok s ∧
    ∃ row ∈ s.rows, ∃ y ∈ s.draft.graph.edges, y.edgeType = edgeType ∧
      row.numbered child = some y.source ∧ y.target = id

theorem Adopted.append {g : Graph} {front : List Mutation} {parent id : Nat}
    (h : Adopted g front parent id) (back : List Mutation) :
    Adopted g (front ++ back) parent id := by
  obtain ⟨before, child, edgeType, after, s, rfl, hrest⟩ := h
  exact ⟨before, child, edgeType, after ++ back, s, by simp, hrest⟩

namespace Plan

variable {objects : List (List (String × Json))} {front ms : List Mutation} {m : Mutation}
  {g : Graph} {p : Pattern} {s u : Progress} {child parent : Nat} {edgeType : String}

theorem Stage.child_bound (h : Stage objects g front (.mergeEdge child edgeType parent) p s u)
    {row : Row} (hrow : row ∈ s.rows) : (row.numbered child).isSome = true := by
  obtain ⟨m, hm, hchild⟩ := h.plan.linked front child edgeType parent [] rfl
  refine ((h.reached.embeds row hrow).bound child).mpr ⟨m, hm, ?_⟩
  cases m with
  | mergeNode => exact hchild
  | mergeEdge => cases hchild
  | raw => cases hchild

theorem Stage.child_ne (h : Stage objects g front (.mergeEdge child edgeType parent) p s u)
    (hbare : ∀ n ∈ front, parent ∉ n.described) : child ≠ parent := by
  rintro rfl
  obtain ⟨m, hm, hchild⟩ := h.plan.linked front child edgeType child [] rfl
  exact hbare m hm hchild

theorem Stage.aimed (h : Stage objects g front (.mergeEdge child edgeType parent) p s u)
    (hbare : ∀ n ∈ front, parent ∉ n.described) {taken : Nat → Prop}
    (htaken : ∀ row ∈ s.rows, ∀ k, row.numbered parent = some k → taken k) :
    Aimed s.draft.graph taken u.draft.graph ∧
      ∀ row' ∈ u.rows, ∀ k, row'.numbered parent = some k →
        u.draft.graph.Blank k ∨ taken k ∨ ∃ row ∈ s.rows, ∃ y ∈ s.draft.graph.edges,
          y.edgeType = edgeType ∧ row.numbered child = some y.source ∧ y.target = k := by
  have hp := h.pattern
  cases hp
  exact mergeRows_aimed (fun row hrow => (h.reached.embeds row hrow).nodes) (h.child_ne hbare)
    (fun row hrow => h.child_bound hrow) htaken (fun x hx => .inl hx) h.run

/-- Only an edge statement is about a parent that is not described, and as the parent. -/
theorem Stage.eq_mergeEdge (h : Stage objects g front m p s u)
    (hbare : ∀ n ∈ front ++ [m], parent ∉ n.described) (hmem : parent ∈ m.ids) :
    ∃ child edgeType, m = .mergeEdge child edgeType parent := by
  cases m with
  | mergeNode id label properties =>
    have hmember : .mergeNode id label properties ∈ front ++ [.mergeNode id label properties] := by
      simp
    exact absurd hmem (hbare _ hmember)
  | mergeEdge child edgeType other =>
    obtain ⟨n, hn, hchild⟩ := h.plan.linked front child edgeType other [] rfl
    rcases List.mem_cons.mp hmem with rfl | hmem
    · exact absurd hchild (hbare n (List.mem_append_left _ hn))
    · rw [List.mem_singleton.mp hmem]
      exact ⟨child, edgeType, rfl⟩
  | raw => cases hmem

theorem blank_or_adopted (h : Plan objects ms) (hs : mergeAll g ms = .ok s)
    (hbare : ∀ m ∈ ms, parent ∉ m.described) {row : Row} (hrow : row ∈ s.rows) {k : Nat}
    (hk : row.numbered parent = some k) :
    s.draft.graph.Blank k ∨ Adopted g ms parent k := by
  refine h.induction (motive := fun ms s => (∀ m ∈ ms, parent ∉ m.described) →
    ∀ row ∈ s.rows, ∀ k, row.numbered parent = some k →
      s.draft.graph.Blank k ∨ Adopted g ms parent k) hs ?_ ?_ hbare row hrow k hk
  · intro _ row hrow k hk
    rw [List.mem_singleton.mp hrow] at hk
    cases hk
  · intro front m p s u hstage ih hbare row' hrow' k hk
    have hbefore : ∀ n ∈ front, parent ∉ n.described :=
      fun n hn => hbare n (List.mem_append_left _ hn)
    obtain ⟨row, hrow, hfollows⟩ := hstage.merged.follows row' hrow'
    have hembeds := hstage.reached.embeds row hrow
    cases hparent : row.numbered parent with
    | some j =>
      -- The row had a node for the parent, and keeps it.
      have hj := hfollows.keeps parent j hparent
      rw [hk] at hj
      cases hj
      rcases ih hbefore row hrow k hparent with hblank | hadopted
      · exact .inl (hblank.mono hstage.merged.grows.graph)
      · exact .inr (hadopted.append [m])
    | none =>
      -- The statement is the first about the parent.
      have hmem : parent ∈ m.ids := by
        have hbound := (hfollows.bound parent).mp (by rw [hk]; rfl)
        rw [hparent] at hbound
        simpa using hbound
      have hfirst : ∀ n ∈ front, parent ∉ n.ids := by
        intro n hn hin
        have hbound := (hembeds.bound parent).mpr ⟨n, hn, hin⟩
        rw [hparent] at hbound
        cases hbound
      have hunbound : ∀ row ∈ s.rows, ∀ k, row.numbered parent = some k → False := by
        intro other hother j hj
        rw [(hstage.reached.embeds other hother).numbered_eq_none hfirst] at hj
        cases hj
      obtain ⟨child, edgeType, rfl⟩ := hstage.eq_mergeEdge hbare hmem
      rcases (hstage.aimed hbefore hunbound).2 row' hrow' k hk with hblank | hfalse | hend
      · exact .inl hblank
      · exact hfalse.elim
      · exact .inr ⟨front, child, edgeType, [], s, rfl, hfirst, hstage.before, hend⟩

end Plan

variable {rootLabel : String} {document : Json}

/-- An edge that is created for a child of an object without properties goes to a node without
label and properties, or to one that was adopted: the end of an edge that the first child of the
object had before. -/
theorem bare_parents_blank_or_adopted {g g' : Graph} {report : Import} (hdoc : document.WellFormed)
    (h : importDocument memoryStore rootLabel document g = (.ok report, g')) :
    ∃ b t, compile rootLabel document = .ok b ∧ mergeAll g b.mutations.toList = .ok t ∧
      t.draft.graph = g' ∧
      ∀ front child edgeType parent back fields,
        b.mutations.toList = front ++ .mergeEdge child edgeType parent :: back →
        document.objects[parent]? = some fields → Json.hasProperties fields = false →
        ∃ s u, mergeAll g front = .ok s ∧
          mergeAll g (front ++ [.mergeEdge child edgeType parent]) = .ok u ∧
          u.draft.graph.Extends g' ∧
          ∀ x ∈ u.draft.graph.edges, x ∉ s.draft.graph.edges →
            g'.Blank x.target ∨ Adopted g front parent x.target := by
  obtain ⟨b, t, hcompile, hplan, ht, rfl, _⟩ := import_progress hdoc h
  refine ⟨b, t, hcompile, ht, rfl, ?_⟩
  intro front child edgeType parent back fields hsplit hfields hnone
  have hbare := not_described_of_compile hcompile hfields hnone
  have hlist : b.mutations.toList = (front ++ [.mergeEdge child edgeType parent]) ++ back := by
    rw [hsplit, List.append_assoc]
    rfl
  rw [hlist] at hplan ht hbare
  obtain ⟨p, s, u, hstage⟩ := hplan.before.stage g
  have hfront : ∀ m ∈ front, parent ∉ m.described := fun m hm =>
    hbare m (List.mem_append_left _ (List.mem_append_left _ hm))
  obtain ⟨hgraph, _⟩ := hplan.continued hstage.after ht
  refine ⟨s, u, hstage.before, hstage.after, hgraph, ?_⟩
  intro x hx hnew
  have htaken : ∀ row ∈ s.rows, ∀ k, row.numbered parent = some k →
      ∃ row ∈ s.rows, row.numbered parent = some k := fun row hrow k hk => ⟨row, hrow, hk⟩
  obtain ⟨haimed, _⟩ := hstage.aimed hfront htaken
  rcases haimed x hx with hold | hblank | ⟨row, hrow, hk⟩
  · exact absurd hold hnew
  · exact .inl (hblank.mono hgraph)
  · rcases hplan.before.before.blank_or_adopted hstage.before hfront hrow hk with hblank | hadopted
    · exact .inl (hblank.mono (hstage.merged.grows.graph.trans hgraph))
    · exact .inr hadopted

/-- A thread with a post; neither the thread nor the object around it has properties. -/
def threadDocument : Json :=
  .object [("thread", .object [("posts", .array [.object [("id", .integer 7 (by decide))]])])]

theorem thread_is_blank :
    ∃ report g', importDocument memoryStore defaultLabel threadDocument .empty =
        (.ok report, g') ∧
      (∃ fields, threadDocument.objects[1]? = some fields ∧ Json.hasProperties fields = false) ∧
      ∀ x ∈ g'.edges, g'.Blank x.target := by
  have hdoc : threadDocument.WellFormed := by
    simp [threadDocument, Json.WellFormed, Json.WellFormedItems, Json.WellFormedFields]
  have himport := eq_of_toOption_fst (x := importDocument memoryStore defaultLabel threadDocument
    .empty) (a := ⟨1, 1, ["Nodes created: 2", "Properties set: 1", "Relationships created: 1"]⟩)
    (by decide +kernel)
  obtain ⟨b, t, hcompile, ht, hgraph, hparents⟩ := bare_parents_blank_or_adopted hdoc himport
  have hlist : b.mutations.toList =
      [.mergeNode 2 "Post" [("id", .int 7)], .mergeEdge 2 "post" 1] := by
    cases hcompile
    rfl
  obtain ⟨s, u, hs, hu, _, htargets⟩ :=
    hparents [.mergeNode 2 "Post" [("id", .int 7)]] 2 "post" 1 [] _ hlist rfl rfl
  have hedges : (mergeAll .empty [.mergeNode 2 "Post" [("id", .int 7)]]).toOption.map
      (fun s => s.draft.graph.edges) = some #[] := by decide +kernel
  rw [hs] at hedges
  have hnone : s.draft.graph.edges = #[] := Option.some.inj hedges
  rw [hlist] at ht
  obtain rfl : t = u := Except.ok.inj (ht.symm.trans hu)
  refine ⟨_, _, himport, ⟨_, rfl, rfl⟩, ?_⟩
  intro x hx
  rw [← hgraph] at hx
  have hnew : x ∉ s.draft.graph.edges := by simp [hnone]
  rcases htargets x hx hnew with hblank | ⟨before, child, edgeType, after, _, hsplit, _⟩
  · exact hblank
  · rcases before with _ | ⟨first, before⟩
    · cases hsplit
    · simp at hsplit

def sharedUserDocument : Json :=
  .array [.object [("id", .ofNat 1), ("user", .object [("name", .string "Ann")])],
    .object [("users", .array [.object [("name", .string "Ann")],
      .object [("name", .string "Bob")]])]]

/-- The statements for it, but for the last, which links Bob to the second object. -/
def sharedUserStatements : List Mutation :=
  [.mergeNode 0 "Post" [("id", .int 1)], .mergeNode 1 "User" [("name", .string "Ann")],
    .mergeEdge 1 "user" 0, .mergeNode 3 "User" [("name", .string "Ann")], .mergeEdge 3 "user" 2,
    .mergeNode 4 "User" [("name", .string "Bob")]]

/-- Ann is a user of the post already, so the post is taken for the second object and Bob becomes a
user of the post. -/
theorem bob_linked_to_post :
    sharedUserDocument.WellFormed ∧ ∃ report g' b s u x n,
      importDocument memoryStore defaultLabel sharedUserDocument .empty = (.ok report, g') ∧
      compile defaultLabel sharedUserDocument = .ok b ∧
      b.mutations.toList = sharedUserStatements ++ [.mergeEdge 4 "user" 2] ∧
      (∃ fields, sharedUserDocument.objects[2]? = some fields ∧
        Json.hasProperties fields = false) ∧
      mergeAll .empty sharedUserStatements = .ok s ∧
      mergeAll .empty (sharedUserStatements ++ [.mergeEdge 4 "user" 2]) = .ok u ∧
      u.draft.graph = g' ∧
      x ∈ g'.edges ∧ x ∉ s.draft.graph.edges ∧
      g'.node? x.target = some n ∧ n.label = some "Post" ∧ n.properties.size = 1 := by
  have hdoc : sharedUserDocument.WellFormed := by
    simp [sharedUserDocument, Json.ofNat, Json.ofInt, IntegerRange, Json.WellFormed,
      Json.WellFormedItems, Json.WellFormedFields]
  obtain ⟨g', himport, hedges, hlabel, hsize⟩ :
      ∃ g', importDocument memoryStore defaultLabel sharedUserDocument .empty = (.ok
          ⟨4, 3, ["Nodes created: 3", "Properties set: 3", "Relationships created: 2"]⟩, g') ∧
        g'.edges = #[⟨0, 1, 0, "user"⟩, ⟨1, 2, 0, "user"⟩] ∧
        (g'.node? 0).bind Node.label = some "Post" ∧
        (g'.node? 0).map (fun n => n.properties.size) = some 1 :=
    ⟨_, eq_of_toOption_fst (by decide +kernel), by decide +kernel⟩
  obtain ⟨n, hn, hlabel⟩ := Option.bind_eq_some_iff.mp hlabel
  rw [hn] at hsize
  obtain ⟨b, t, hcompile, hplan, ht, hgraph, _⟩ := import_progress hdoc himport
  have hlist : b.mutations.toList = sharedUserStatements ++ [.mergeEdge 4 "user" 2] := by
    cases hcompile
    rfl
  rw [hlist] at hplan ht
  obtain ⟨p, s, u, hstage⟩ := hplan.stage .empty
  obtain rfl : t = u := Except.ok.inj (ht.symm.trans hstage.after)
  have hbefore : (mergeAll .empty sharedUserStatements).toOption.map
      (fun s => s.draft.graph.edges) = some #[⟨0, 1, 0, "user"⟩] := by decide +kernel
  rw [hstage.before] at hbefore
  have hold : s.draft.graph.edges = #[⟨0, 1, 0, "user"⟩] := Option.some.inj hbefore
  refine ⟨hdoc, _, g', b, s, t, ⟨1, 2, 0, "user"⟩, n, himport, hcompile, hlist, ⟨_, rfl, rfl⟩,
    hstage.before, ht, hgraph, ?_, ?_, hn, hlabel, Option.some.inj hsize⟩
  · simp [hedges]
  · simp [hold]

end FieldGraph
