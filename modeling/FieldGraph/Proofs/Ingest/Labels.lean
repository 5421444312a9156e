import FieldGraph.Proofs.Field.Lookup
import FieldGraph.Proofs.Field.ReadOnly
import FieldGraph.Proofs.Ingest.Parents

/-!
# Labels at the start of edges

The label of a node and the type of its edge to the parent are taken from one field name, in two
statements. However imports follow one another, every edge of the graph leaves a node that is
labelled with the type of the edge, and this is what a field of the question-and-answer schema
relies on when it names a type for nodes whose label it does not look at.
-/
namespace FieldGraph

def capitalize (name : String) : String :=
  match name.toList with
  | [] => ""
  | c :: rest => String.ofList (Text.toUppercase c ++ rest)

theorem toLabel_eq (name : String) : toLabel name = capitalize (toEdgeType name) := by
  have htext : (toEdgeType name).toList = singular name.toList := String.toList_ofList
  unfold toLabel capitalize
  cases hsingular : singular name.toList with
  | nil => simp [htext, hsingular]
  | cons c rest => simp [htext, hsingular]

/-- Every edge leaves a node that is labelled with its type. -/
def Graph.EdgesLabelled (g : Graph) : Prop :=
  ∀ e ∈ g.edges, ∃ n, g.node? e.source = some n ∧ n.label = some (capitalize e.edgeType)

namespace Mutation

/-- An edge comes after the node of its child, and both are named after one field. -/
def Named (ms : List Mutation) : Prop :=
  ∀ front child edgeType parent back, ms = front ++ .mergeEdge child edgeType parent :: back →
    ∃ relation properties, edgeType = toEdgeType relation ∧
      .mergeNode child (toLabel relation) properties ∈ front

theorem Named.before {front back : List Mutation} (h : Named (front ++ back)) : Named front := by
  intro first child edgeType parent others hsplit
  apply h first child edgeType parent (others ++ back)
  rw [hsplit, List.append_assoc]
  rfl

/-- The statement asks for the edge, from the node that one of the rows has for the child. -/
def Makes (m : Mutation) (rows : List Row) (x : Edge) : Prop :=
  ∃ child parent, m = .mergeEdge child x.edgeType parent ∧
    ∃ row ∈ rows, row.numbered child = some x.source

end Mutation

theorem named_of_compile {rootLabel : String} {document : Json} {b : Batch}
    (h : compile rootLabel document = .ok b) : Mutation.Named b.mutations.toList := by
  intro front child edgeType parent back hsplit
  have hmem : .mergeEdge child edgeType parent ∈ b.mutations.toList := by simp [hsplit]
  obtain ⟨relation, properties, htype, hnode⟩ := (execution_of_compile h).child_named hmem
  have hfresh := (invariant_of_compile h).fresh
  rw [hsplit] at hnode hfresh
  exact ⟨relation, properties, htype, hfresh.mem_front hnode (List.mem_singleton_self child)
    List.mem_cons_self List.not_mem_nil⟩

section

variable {m : Mutation} {p : Pattern} {d e : Draft} {row : Row} {rows found : List Row} {x : Edge}

theorem NodePattern.create_edges {n : NodePattern} {row' : Row} {k : Nat}
    (h : n.create d row = .ok (e, row', k)) : e.graph.edges = d.graph.edges := by
  rcases create_cases h with ⟨_, _, rfl, _⟩ | ⟨_, _, rfl, _⟩
  · rfl
  · rfl

/-- A merge adds no edges but those that its statement asks for. -/
theorem mergeRow_makes (hp : m.pattern? = some p) (hrow : row.Nodes d.graph)
    (hchild : ∀ child edgeType parent, m = .mergeEdge child edgeType parent →
      (row.numbered child).isSome = true)
    (h : mergeRow .write p d row = .ok (e, found)) (hx : x ∈ e.graph.edges) :
    x ∈ d.graph.edges ∨ m.Makes [row] x := by
  rcases mergeRow_cases h with ⟨rfl, _⟩ | ⟨row', _, hcreate, _⟩
  · exact .inl hx
  · cases m with
    | mergeNode id label properties =>
      cases hp
      obtain ⟨⟨d₁, row₁, k⟩, hnode, h⟩ := bind_eq_ok.mp hcreate
      cases h
      rw [NodePattern.create_edges hnode] at hx
      exact .inl hx
    | mergeEdge child edgeType parent =>
      cases hp
      obtain ⟨d₁, row₁, d₂, k, l, hstart, hstop, hadd⟩ := Pattern.create_link_steps hcreate
      obtain ⟨_, hedges⟩ := Draft.addEdge_ok hadd
      rw [hedges, NodePattern.create_edges hstop, NodePattern.create_edges hstart] at hx
      rcases Array.mem_push.mp hx with hx | rfl
      · exact .inl hx
      · obtain ⟨hbinds, _⟩ := NodePattern.create_free_cases hrow hstart
        obtain ⟨j, hj⟩ := Option.isSome_iff_exists.mp (hchild child edgeType parent rfl)
        have hsource : row.numbered child = some k := by rw [hj, hbinds.same j hj]
        exact .inr ⟨child, parent, rfl, row, List.mem_singleton_self row, hsource⟩
    | raw text => cases hp

theorem mergeRows_makes (hp : m.pattern? = some p) (hrows : ∀ row ∈ rows, row.Nodes d.graph)
    (hchild : ∀ child edgeType parent, m = .mergeEdge child edgeType parent →
      ∀ row ∈ rows, (row.numbered child).isSome = true)
    (h : mergeRows .write p d rows = .ok (e, found)) (hx : x ∈ e.graph.edges) :
    x ∈ d.graph.edges ∨ m.Makes rows x := by
  induction rows generalizing d found with
  | nil =>
    cases h
    exact .inl hx
  | cons row rows ih =>
    obtain ⟨⟨d₁, found₁⟩, hrow, h⟩ := bind_eq_ok.mp h
    obtain ⟨⟨d₂, found₂⟩, hrest, h⟩ := bind_eq_ok.mp h
    cases h
    have hgraph := (mergeRow_grows hrow).graph
    have hothers := ih (fun other hother => (hrows other (.tail _ hother)).mono hgraph)
      (fun child edgeType parent hm other hother =>
        hchild child edgeType parent hm other (.tail _ hother)) hrest
    rcases hothers with hx | ⟨child, parent, hm, other, hother, hsource⟩
    · have hfirst := mergeRow_makes hp (hrows row List.mem_cons_self)
        (fun child edgeType parent hm => hchild child edgeType parent hm row List.mem_cons_self)
        hrow hx
      rcases hfirst with hx | ⟨child, parent, hm, other, hother, hsource⟩
      · exact .inl hx
      · rw [List.mem_singleton.mp hother] at hsource
        exact .inr ⟨child, parent, hm, row, List.mem_cons_self, hsource⟩
    · exact .inr ⟨child, parent, hm, other, .tail _ hother, hsource⟩

end

/-- The node of the child has been merged with its label before the edge is. -/
theorem Plan.Stage.edges_labelled {objects : List (List (String × Json))} {g : Graph}
    {front : List Mutation} {m : Mutation} {p : Pattern} {s u : Progress}
    (h : Plan.Stage objects g front m p s u) (hnamed : Mutation.Named (front ++ [m]))
    (hs : s.draft.graph.EdgesLabelled) : u.draft.graph.EdgesLabelled := by
  have hgraph := h.merged.grows.graph
  have hchild : ∀ child edgeType parent, m = .mergeEdge child edgeType parent →
      ∀ row ∈ s.rows, (row.numbered child).isSome = true := by
    rintro child edgeType parent rfl row hrow
    exact h.child_bound hrow
  intro x hx
  rcases mergeRows_makes h.pattern (fun row hrow => (h.reached.embeds row hrow).nodes) hchild
    h.run hx with hold | ⟨child, parent, rfl, row, hrow, hsource⟩
  · obtain ⟨n, hn, hlabel⟩ := hs x hold
    exact ⟨n, hgraph.node? hn, hlabel⟩
  · obtain ⟨relation, properties, htype, hnode⟩ := hnamed front child _ parent [] rfl
    obtain ⟨n, hn, hlabel, _⟩ :=
      (h.reached.embeds row hrow).holds _ row.agrees_assignment _ hnode
    rw [row.agrees_assignment child _ hsource] at hn
    refine ⟨n, hgraph.node? hn, ?_⟩
    rw [hlabel, toLabel_eq, htype]

/-- An import that fails leaves the graph as it was. -/
theorem import_failed {rootLabel : String} {document : Json} {g g' : Graph} {error : GraphError}
    (h : importDocument memoryStore rootLabel document g = (.error error, g')) : g' = g := by
  rw [importDocument] at h
  cases hcompile : compile rootLabel document with
  | error fault =>
    rw [hcompile] at h
    cases h
    rfl
  | ok b =>
    rw [hcompile] at h
    dsimp only at h
    split at h
    case isTrue => cases h
    case isFalse =>
      cases hsubmit : memoryStore.submit b.render g with
      | mk reply next =>
        have hexecute := Store.execute_eq memoryStore b.render g
        rw [hsubmit] at hexecute
        rcases submit_cases hsubmit with ⟨answer, rfl, _⟩ | ⟨e, rfl, hsame⟩
        · rw [storeM_bind_ok hexecute] at h
          cases h
        · rw [storeM_bind_error hexecute] at h
          cases h
          exact hsame

theorem import_edges_labelled {rootLabel : String} {document : Json} {g g' : Graph}
    {outcome : Except GraphError Import} (hdoc : document.WellFormed)
    (h : importDocument memoryStore rootLabel document g = (outcome, g'))
    (hg : g.EdgesLabelled) : g'.EdgesLabelled := by
  cases outcome with
  | error error => rwa [import_failed h]
  | ok report =>
    obtain ⟨b, t, hcompile, hplan, ht, rfl, _⟩ := import_progress hdoc h
    refine hplan.induction (motive := fun ms s => Mutation.Named ms → s.draft.graph.EdgesLabelled)
      ht (fun _ => hg) ?_ (named_of_compile hcompile)
    intro front m p s u hstage ih hnamed
    exact hstage.edges_labelled hnamed (ih hnamed.before)

/-- The graphs that imports make of the empty graph, one after another; some of them may fail. No
object of a document that was read has two fields of one name. -/
inductive Graph.Imported : Graph → Prop
  | empty : Imported .empty
  | step {g g' : Graph} {rootLabel : String} {document : Json}
      {outcome : Except GraphError Import} (hg : Imported g) (hdoc : document.WellFormed)
      (h : importDocument memoryStore rootLabel document g = (outcome, g')) : Imported g'

theorem Graph.Imported.next {g : Graph} (hg : g.Imported) (rootLabel : String) {document : Json}
    (hdoc : document.WellFormed) : (importDocument memoryStore rootLabel document g).2.Imported :=
  .step hg hdoc (Prod.eta _).symm

theorem Graph.Imported.edges_labelled {g : Graph} (h : g.Imported) : g.EdgesLabelled := by
  induction h with
  | empty =>
    intro e he
    exact absurd he (Array.not_mem_empty e)
  | step _ hdoc himport ih => exact import_edges_labelled hdoc himport ih

def FieldType.typeName? : FieldType → Option String
  | .scalar => none
  | .object typeName => some typeName
  | .list typeName => some typeName

def Resolved.nodes : Resolved → List NodeRef
  | .scalar _ => []
  | .reference node => node.toList
  | .references nodes => nodes

/-- A relation asks for the label of a type, or for nodes with an edge that is named after it. -/
def Resolver.Declares (declared : String) : Resolver → Prop
  | .relation _ edgeType direction targetLabel =>
    targetLabel = some declared ∨
      targetLabel = none ∧ direction = .incoming ∧ edgeType.map capitalize = some declared
  | _ => True

instance (declared : String) (r : Resolver) : Decidable (r.Declares declared) :=
  match r with
  | .relation _ edgeType direction targetLabel =>
    inferInstanceAs (Decidable (targetLabel = some declared ∨
      targetLabel = none ∧ direction = .incoming ∧ edgeType.map capitalize = some declared))
  | .identity => isTrue trivial
  | .property _ => isTrue trivial
  | .search => isTrue trivial
  | .collection _ => isTrue trivial

theorem dataset_declares : ∀ entry ∈ Schema.dataset.types.entries, ∀ field ∈ entry.2.fields,
    ∀ declared ∈ field.fieldType.typeName?, field.resolver.Declares declared := by
  decide +kernel

section

variable {g : Graph} {id : Nat} {direction : Direction} {edgeType targetLabel : Option String}
  {declared : String} {multiplicity : Multiplicity}

/-- A loop has the same node at both ends, so whichever end is taken is the source. -/
theorem Edge.otherEnd_of_incoming {e : Edge} (h : e.leaves id .incoming = true) :
    e.otherEnd id = e.source := by
  have htarget : e.target = id := by simpa [Edge.leaves] using h
  unfold Edge.otherEnd
  split
  case isTrue hsource => rw [htarget, hsource]
  case isFalse => rfl

theorem related_labelled (hg : g.EdgesLabelled)
    (hdeclares : (Resolver.relation multiplicity edgeType direction targetLabel).Declares declared)
    {hop : Nat × Nat} (hhop : hop ∈ g.related id direction edgeType targetLabel) :
    ∃ n, g.node? hop.2 = some n ∧ n.label = some declared := by
  obtain ⟨hneighbor, hlabelled⟩ := List.mem_filter.mp hhop
  rcases hdeclares with rfl | ⟨rfl, rfl, htype⟩
  · obtain ⟨n, hn, hlabel⟩ := (Option.any_eq_true _ _).mp hlabelled
    exact ⟨n, hn, beq_iff_eq.mp hlabel⟩
  · obtain ⟨e, he, hleaves, hasked, rfl⟩ := Graph.mem_neighbors.mp hneighbor
    obtain ⟨name, rfl, rfl⟩ := Option.map_eq_some_iff.mp htype
    have hsame : e.edgeType = name := by simpa using hasked
    rw [Edge.otherEnd_of_incoming hleaves, ← hsame]
    exact hg e he

theorem resolve_declared (hg : g.EdgesLabelled) (hsize : g.nodeCount ≤ 0x8000000000000000)
    (hid : id < 0x8000000000000000)
    (hplain : (Resolver.relation multiplicity edgeType direction targetLabel).Plain)
    (hdeclares : (Resolver.relation multiplicity edgeType direction targetLabel).Declares declared)
    (typeName : Option String) (arguments : Arguments) :
    ∃ found, Resolver.resolve (.relation multiplicity edgeType direction targetLabel) memoryStore
        (some ⟨id, typeName⟩) arguments g = (.ok found, g) ∧
      ∀ ref ∈ found.nodes, ∃ n, g.node? ref.id = some n ∧ n.label = some declared := by
  refine ⟨_, Resolver.resolve_relation hplain hsize hid typeName arguments, ?_⟩
  intro ref href
  have hmem : ref ∈ (g.related id direction edgeType targetLabel).map
      fun hop => (⟨hop.2, none⟩ : NodeRef) := by
    cases multiplicity with
    | single => exact List.mem_of_head? (Option.mem_toList.mp href)
    | many => exact href
  obtain ⟨hop, hhop, rfl⟩ := List.mem_map.mp hmem
  exact related_labelled hg hdeclares hhop

end

/-- In a graph that was made by imports, every edge leaves a node with the label of its type, and
whatever a relation of the question-and-answer schema finds has the label of the type that the
field is declared to yield. Node numbers are sent as 64-bit integers, which are enough for any graph
held in memory. -/
theorem imported_nodes_as_declared {g : Graph} (h : g.Imported) :
    (∀ e ∈ g.edges, ∃ n, g.node? e.source = some n ∧ n.label = some (capitalize e.edgeType)) ∧
    (g.nodeCount ≤ 0x8000000000000000 →
      ∀ typeName name field declared, Schema.dataset.field typeName name = .ok field →
        field.fieldType.typeName? = some declared →
        ∀ multiplicity edgeType direction targetLabel,
          field.resolver = .relation multiplicity edgeType direction targetLabel →
          ∀ source : NodeRef, source.id < 0x8000000000000000 → ∀ arguments,
            ∃ found, field.resolver.resolve memoryStore (some source) arguments g =
                (.ok found, g) ∧
              ∀ ref ∈ found.nodes,
                ∃ n, g.node? ref.id = some n ∧ n.label = some declared) := by
  refine ⟨h.edges_labelled, ?_⟩
  intro hsize typeName name field declared hfield hdeclared multiplicity edgeType direction
    targetLabel hrelation source hid arguments
  obtain ⟨entry, hentry, hmem⟩ := Schema.exists_type_of_field hfield
  have hplain := dataset_plain entry hentry field hmem
  have hdeclares := dataset_declares entry hentry field hmem declared hdeclared
  rw [hrelation] at hplain hdeclares ⊢
  exact resolve_declared h.edges_labelled hsize hid hplain hdeclares source.typeName arguments

def userPost : Json :=
  .object [("title", .string "a"), ("user", .object [("name", .string "Ann")])]

def commentedPost : Json :=
  .object [("title", .string "a"), ("comments", .array [.object [("body", .string "b")]])]

/-- The second of the three imports fails. -/
theorem post_comments_as_declared :
    ∃ g, g.Imported ∧ g.edges = #[⟨0, 1, 0, "user"⟩, ⟨1, 2, 0, "comment"⟩] ∧
      (∀ e ∈ g.edges, ∃ n, g.node? e.source = some n ∧ n.label = some (capitalize e.edgeType)) ∧
      ∃ found, Schema.commentsField.resolver.resolve memoryStore (some ⟨0, none⟩) [] g =
          (.ok found, g) ∧ found.nodes = [⟨2, none⟩] ∧
        ∀ ref ∈ found.nodes, ∃ n, g.node? ref.id = some n ∧ n.label = some "Comment" := by
  have hfirst : userPost.WellFormed := by
    simp [userPost, Json.WellFormed, Json.WellFormedFields]
  have hlast : commentedPost.WellFormed := by
    simp [commentedPost, Json.WellFormed, Json.WellFormedItems, Json.WellFormedFields]
  have hscalar : Json.WellFormed (.string "a") := trivial
  obtain ⟨g, himported, hedges, hcount, hnodes⟩ : ∃ g, g.Imported ∧
      g.edges = #[⟨0, 1, 0, "user"⟩, ⟨1, 2, 0, "comment"⟩] ∧ g.nodeCount = 3 ∧
      (Schema.commentsField.resolver.resolve memoryStore (some ⟨0, none⟩) [] g).1.toOption.map
        Resolved.nodes = some [⟨2, none⟩] :=
    ⟨_, ((Graph.Imported.empty.next defaultLabel hfirst).next defaultLabel hscalar).next
      defaultLabel hlast, by decide +kernel⟩
  have hsize : g.nodeCount ≤ 0x8000000000000000 := by
    rw [hcount]
    decide
  have hfield : Schema.dataset.field "Post" "comments" = .ok Schema.commentsField := rfl
  obtain ⟨hlabels, hdeclared⟩ := imported_nodes_as_declared himported
  obtain ⟨found, hfound, hall⟩ := hdeclared hsize "Post" "comments" Schema.commentsField "Comment"
    hfield rfl .many "comment" .incoming none rfl ⟨0, none⟩ (by decide) []
  rw [hfound] at hnodes
  exact ⟨g, himported, hedges, hlabels, found, hfound, Option.some.inj hnodes, hall⟩

end FieldGraph
