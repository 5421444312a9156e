import FieldGraph.Proofs.Document.Statements
import FieldGraph.Proofs.Statement.Occurrences

/-!
# Compiled statements in a graph

When a statement holds in a graph, with nodes of the graph for its numbers, and what merging it
makes of a row: the rows in which it holds, one for each way in which it does.
-/
namespace FieldGraph

/-- The statement holds if its numbers stand for the given nodes: a node has the label and all the
properties, and an edge goes from child to parent. -/
def Mutation.HoldsIn (g : Graph) (nodeOf : Nat → Nat) : Mutation → Prop
  | .mergeNode id label properties => ∃ n, g.node? (nodeOf id) = some n ∧ n.label = some label ∧
      ∀ p ∈ properties, ∃ value, n.properties.get? p.1 = some value ∧ value.same p.2 = true
  | .mergeEdge child edgeType parent => ∃ e ∈ g.edges, e.edgeType = edgeType ∧
      e.source = nodeOf child ∧ e.target = nodeOf parent
  | .raw _ => False

theorem Mutation.HoldsIn.mono {g g' : Graph} (hg : g.Extends g') {nodeOf : Nat → Nat}
    {m : Mutation} (h : m.HoldsIn g nodeOf) : m.HoldsIn g' nodeOf := by
  cases m with
  | mergeNode id label properties =>
    obtain ⟨n, hn, hrest⟩ := h
    exact ⟨n, hg.node? hn, hrest⟩
  | mergeEdge child edgeType parent =>
    obtain ⟨e, he, hrest⟩ := h
    exact ⟨e, hg.mem_edges he, hrest⟩
  | raw text => exact h

theorem Mutation.HoldsIn.congr {g : Graph} {nodeOf other : Nat → Nat} {m : Mutation}
    (heq : ∀ id ∈ m.ids, other id = nodeOf id) (h : m.HoldsIn g nodeOf) : m.HoldsIn g other := by
  cases m with
  | mergeNode id label properties =>
    obtain ⟨n, hn, hrest⟩ := h
    exact ⟨n, by rw [heq id (by simp [ids]), hn], hrest⟩
  | mergeEdge child edgeType parent =>
    obtain ⟨e, he, htype, hsource, htarget⟩ := h
    exact ⟨e, he, htype, by rw [heq child (by simp [ids]), hsource],
      by rw [heq parent (by simp [ids]), htarget]⟩
  | raw text => exact h

theorem Mutation.HoldsIn.lt {g : Graph} {nodeOf : Nat → Nat} {m : Mutation}
    (h : m.HoldsIn g nodeOf) {id : Nat} (hid : id ∈ m.ids) : nodeOf id < g.nodeCount := by
  cases m with
  | mergeNode k label properties =>
    obtain ⟨n, hn, _⟩ := h
    rw [List.mem_singleton.mp hid]
    exact Graph.node?_lt hn
  | mergeEdge child edgeType parent =>
    obtain ⟨e, he, _, hsource, htarget⟩ := h
    have hends := g.endpoints e he
    rcases List.mem_cons.mp hid with rfl | hid
    · rw [← hsource]
      exact hends.1
    · rw [List.mem_singleton.mp hid, ← htarget]
      exact hends.2
  | raw text => cases hid

namespace Row

def numbered (row : Row) (id : Nat) : Option Nat := row.node? (Mutation.variableOf id)

/-- The numbers stand for the nodes that the row binds their variables to. -/
def Agrees (row : Row) (nodeOf : Nat → Nat) : Prop :=
  ∀ id k, row.numbered id = some k → nodeOf id = k

def assignment (row : Row) (id : Nat) : Nat := (row.numbered id).getD 0

theorem agrees_assignment (row : Row) : row.Agrees row.assignment := by
  intro id k h
  rw [assignment, h, Option.getD_some]

theorem numbered_cons (id k : Nat) (row : Row) (other : Nat) :
    numbered ((Mutation.variableOf id, .node k) :: row) other =
      if other = id then some k else row.numbered other := by
  rw [numbered, node?_cons]
  by_cases h : other = id
  · rw [if_pos h, if_pos (by rw [h])]
  · rw [if_neg h, if_neg fun heq => h (variableOf_injective heq)]
    rfl

/-- The row is another one with the variable of a number bound to a node, and that node it had
before if it was bound. -/
structure Binds (row : Row) (id k : Nat) (row' : Row) : Prop where
  numbered : ∀ other, row'.numbered other = if other = id then some k else row.numbered other
  same : ∀ j, row.numbered id = some j → j = k

theorem binds_cons {row : Row} {id k : Nat} (h : ∀ j, row.numbered id = some j → j = k) :
    row.Binds id k ((Mutation.variableOf id, .node k) :: row) :=
  ⟨numbered_cons id k row, h⟩

theorem binds_self {row : Row} {id k : Nat} (h : row.numbered id = some k) :
    row.Binds id k row := by
  refine ⟨fun other => ?_, fun j hj => ?_⟩
  · by_cases heq : other = id
    · rw [if_pos heq, heq, h]
    · rw [if_neg heq]
  · rw [h] at hj
    exact (Option.some.inj hj).symm

theorem Binds.self {row row' : Row} {id k : Nat} (h : row.Binds id k row') :
    row'.numbered id = some k := by
  rw [h.numbered, if_pos rfl]

theorem Binds.keeps {row row' : Row} {id k : Nat} (h : row.Binds id k row') {other j : Nat}
    (hj : row.numbered other = some j) : row'.numbered other = some j := by
  rw [h.numbered]
  by_cases heq : other = id
  · subst heq
    rw [if_pos rfl, h.same j hj]
  · rw [if_neg heq, hj]

/-- The row comes from another by a statement that holds in it and binds its numbers. -/
structure Follows (m : Mutation) (g : Graph) (row row' : Row) : Prop where
  nodes : row'.Nodes g
  keeps : ∀ id k, row.numbered id = some k → row'.numbered id = some k
  bound : ∀ id, (row'.numbered id).isSome = true ↔ (row.numbered id).isSome = true ∨ id ∈ m.ids
  holds : ∀ nodeOf, row'.Agrees nodeOf → m.HoldsIn g nodeOf

theorem Follows.mono {m : Mutation} {g g' : Graph} {row row' : Row} (h : Follows m g row row')
    (hg : g.Extends g') : Follows m g' row row' :=
  ⟨h.nodes.mono hg, h.keeps, h.bound, fun nodeOf hagrees => (h.holds nodeOf hagrees).mono hg⟩

theorem Follows.agrees {m : Mutation} {g : Graph} {row row' : Row} (h : Follows m g row row')
    {nodeOf : Nat → Nat} (hagrees : row'.Agrees nodeOf) : row.Agrees nodeOf :=
  fun id k hid => hagrees id k (h.keeps id k hid)

theorem Agrees.cons {row : Row} {nodeOf : Nat → Nat} (h : row.Agrees nodeOf) (id : Nat) :
    Agrees ((Mutation.variableOf id, .node (nodeOf id)) :: row) nodeOf := by
  intro other k hother
  rw [numbered_cons] at hother
  split at hother
  case isTrue heq =>
    rw [heq]
    exact Option.some.inj hother
  case isFalse => exact h other k hother

theorem Binds.follows_node {g : Graph} {row row' : Row} {id k : Nat} {label : String}
    {properties : List (String × Value)} (h : row.Binds id k row') (hrow' : row'.Nodes g)
    (hholds : (Mutation.mergeNode id label properties).HoldsIn g fun _ => k) :
    Follows (.mergeNode id label properties) g row row' := by
  refine ⟨hrow', fun _ _ => h.keeps, fun other => ?_, fun nodeOf hagrees => ?_⟩
  · rw [h.numbered]
    by_cases heq : other = id
    · simp [heq, Mutation.ids]
    · simp [heq, Mutation.ids]
  · refine hholds.congr fun other hother => ?_
    rw [List.mem_singleton.mp hother]
    exact hagrees id k h.self

theorem Binds.follows_edge {g : Graph} {row first second : Row} {child parent k l : Nat}
    {edgeType : String} (hchild : row.Binds child k first) (hparent : first.Binds parent l second)
    (hsecond : second.Nodes g)
    (hedge : ∃ e ∈ g.edges, e.edgeType = edgeType ∧ e.source = k ∧ e.target = l) :
    Follows (.mergeEdge child edgeType parent) g row second := by
  refine ⟨hsecond, fun _ _ hid => hparent.keeps (hchild.keeps hid), fun other => ?_,
    fun nodeOf hagrees => ?_⟩
  · rw [hparent.numbered, hchild.numbered]
    by_cases hp : other = parent
    · simp [hp, Mutation.ids]
    · by_cases hc : other = child
      · subst hc
        simp [hp, Mutation.ids]
      · simp [hp, hc, Mutation.ids]
  · obtain ⟨e, he, htype, hsource, htarget⟩ := hedge
    have hk : nodeOf child = k := hagrees child k (hparent.keeps hchild.self)
    have hl : nodeOf parent = l := hagrees parent l hparent.self
    exact ⟨e, he, htype, by rw [hk, hsource], by rw [hl, htarget]⟩

end Row

theorem describes_iff {name : Option String} {label : String}
    {properties : List (String × Value)} (hnodup : (properties.map Prod.fst).Nodup) {n : Node} :
    NodePattern.Describes ⟨name, some label, properties⟩ n ↔ n.label = some label ∧
      ∀ p ∈ properties, ∃ value, n.properties.get? p.1 = some value ∧ value.same p.2 = true := by
  rw [← NodePattern.admits_iff_describes, NodePattern.admits, Bool.and_eq_true,
    NodePattern.propertyMap, PropertyMap.includes_ofList hnodup]
  simp [Node.hasLabel]

section

variable {g : Graph} {row : Row} {p : NodePattern} {id k : Nat}

theorem NodePattern.MetBy.binds (h : p.MetBy g row k) (hrow : row.Nodes g)
    (hname : p.name = some (Mutation.variableOf id)) :
    row.Binds id k ((Mutation.variableOf id, .node k) :: row) := by
  apply Row.binds_cons
  intro j hj
  apply (NodePattern.agrees_iff_of_nodes hrow).mp h.name
  rw [hname]
  exact hj

theorem Row.Agrees.metBy {nodeOf : Nat → Nat} (h : row.Agrees nodeOf) (hrow : row.Nodes g)
    (hname : p.name = some (Mutation.variableOf id)) {n : Node}
    (hn : g.node? (nodeOf id) = some n) (hdescribes : p.Describes n) :
    p.MetBy g row (nodeOf id) := by
  refine ⟨⟨n, hn, hdescribes⟩, (NodePattern.agrees_iff_of_nodes hrow).mpr ?_⟩
  intro bound hbound
  rw [hname] at hbound
  exact (h id bound hbound).symm

end

variable {objects : List (List (String × Json))}

theorem Mutation.Compiled.keys_nodup {id : Nat} {label : String}
    {properties : List (String × Value)} (hm : (mergeNode id label properties).Compiled objects)
    (hobjects : Json.DistinctKeys objects) :
    (properties.map Prod.fst).Nodup := by
  cases hm with
  | node hfields hproperties => exact (hobjects _ hfields).sublist (keys_propertiesOf hproperties)

/-- The rows are all the ways in which a statement holds for a row. -/
structure Mutation.Ways (m : Mutation) (g : Graph) (row : Row) (found : List Row) : Prop where
  follows : ∀ row' ∈ found, Row.Follows m g row row'
  complete : ∀ nodeOf, row.Agrees nodeOf → m.HoldsIn g nodeOf → ∃ row' ∈ found, row'.Agrees nodeOf

theorem matches_mergeNode {g : Graph} {row : Row} {label : String}
    {properties : List (String × Value)} (hrow : row.Nodes g)
    (hnodup : (properties.map Prod.fst).Nodup) (id : Nat) :
    ∃ found, Pattern.matches ⟨⟨Mutation.variableOf id, label, properties⟩, none⟩ g row =
      .ok found ∧ (Mutation.mergeNode id label properties).Ways g row found := by
  obtain ⟨found, hfound, hmem⟩ :=
    Pattern.matches_of_nodes hrow ⟨⟨Mutation.variableOf id, label, properties⟩, none⟩
  refine ⟨found, hfound, ?_, ?_⟩
  · intro row' hrow'
    obtain ⟨_, hmet, rfl⟩ := (hmem row').mp hrow'
    cases hmet with
    | node hmet =>
      obtain ⟨n, hn, hdescribes⟩ := hmet.node
      exact (hmet.binds hrow rfl).follows_node (hrow.cons _ hmet.lt)
        ⟨n, hn, (describes_iff hnodup).mp hdescribes⟩
  · intro nodeOf hagrees hholds
    obtain ⟨n, hn, hholds⟩ := hholds
    have hmet := hagrees.metBy hrow rfl hn ((describes_iff hnodup).mpr hholds)
    exact ⟨_, (hmem _).mpr ⟨.node (nodeOf id), .node hmet, rfl⟩, hagrees.cons id⟩

theorem matches_mergeEdge {g : Graph} {row : Row} (hrow : row.Nodes g) (child parent : Nat)
    (edgeType : String) :
    ∃ found, Pattern.matches ⟨⟨Mutation.variableOf child, none, []⟩,
        some (⟨none, edgeType, .outgoing⟩, ⟨Mutation.variableOf parent, none, []⟩)⟩ g row =
      .ok found ∧ (Mutation.mergeEdge child edgeType parent).Ways g row found := by
  obtain ⟨found, hfound, hmem⟩ := Pattern.matches_of_nodes hrow
    ⟨⟨Mutation.variableOf child, none, []⟩,
      some (⟨none, edgeType, .outgoing⟩, ⟨Mutation.variableOf parent, none, []⟩)⟩
  refine ⟨found, hfound, ?_, ?_⟩
  · intro row' hrow'
    obtain ⟨_, hoccurs, rfl⟩ := (hmem row').mp hrow'
    cases hoccurs with
    | @hop _ _ _ k l e hchild he hleads htype _ hparent =>
      have hrow₁ := hrow.cons (Mutation.variableOf child) hchild.lt
      exact (hchild.binds hrow rfl).follows_edge (hparent.binds hrow₁ rfl)
        (hrow₁.cons _ hparent.lt) ⟨e, he, htype edgeType rfl, hleads⟩
  · intro nodeOf hagrees hholds
    obtain ⟨e, he, htype, hsource, htarget⟩ := hholds
    have hends := g.endpoints e he
    obtain ⟨n, hn⟩ := Graph.exists_node? hends.1
    obtain ⟨k, hk⟩ := Graph.exists_node? hends.2
    rw [hsource] at hn hends
    rw [htarget] at hk
    have hchild := hagrees.metBy (p := ⟨Mutation.variableOf child, none, []⟩) hrow rfl hn
      (NodePattern.describes_of_unconstrained rfl n)
    -- A loop binds one variable twice, so the second end is looked up in the row with the first.
    have hfirst := hagrees.cons child
    have hparent := hfirst.metBy (p := ⟨Mutation.variableOf parent, none, []⟩)
      (hrow.cons (Mutation.variableOf child) hends.1) rfl hk
      (NodePattern.describes_of_unconstrained rfl k)
    refine ⟨_, (hmem _).mpr ⟨.hop (nodeOf child) e.id (nodeOf parent),
      .hop hchild he ⟨hsource, htarget⟩ ?_ ?_ hparent, rfl⟩, hfirst.cons parent⟩
    · rintro _ ⟨⟩
      exact htype
    · intro name bound hname
      cases hname

/-- A statement is found exactly in the ways in which it holds. -/
theorem Mutation.Compiled.matches_spec {m : Mutation} {p : Pattern} {g : Graph} {row : Row}
    (hm : m.Compiled objects) (hobjects : Json.DistinctKeys objects)
    (hp : m.pattern? = some p) (hrow : row.Nodes g) :
    ∃ found, p.matches g row = .ok found ∧ m.Ways g row found := by
  cases m with
  | mergeNode id label properties =>
    cases hp
    exact matches_mergeNode hrow (hm.keys_nodup hobjects) id
  | mergeEdge child edgeType parent =>
    cases hp
    exact matches_mergeEdge hrow child parent edgeType
  | raw text => cases hm

end FieldGraph
