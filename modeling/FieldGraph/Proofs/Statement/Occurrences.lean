import FieldGraph.Proofs.SortedMap
import FieldGraph.Proofs.Statement.Rows

/-!
# Occurrences of patterns in order

Where a pattern occurs for a row is said of the nodes and edges of the graph alone, without the ways
in which they are looked up. Matching makes one row of each occurrence, in the order of the start
nodes and for each of them in the order of the edges.
-/
namespace FieldGraph

/-- A place where a pattern occurs: a node, or an edge with the node where the pattern starts and
the node where it stops. -/
inductive Occurrence where
  | node (start : Nat)
  | hop (start edge stop : Nat)
  deriving DecidableEq, Repr

namespace Occurrence

def start : Occurrence → Nat
  | .node start => start
  | .hop start _ _ => start

/-- The order by start node and, from one start node, by edge. -/
inductive Before : Occurrence → Occurrence → Prop
  | start {a b : Occurrence} (h : a.start < b.start) : Before a b
  | edge {start e f s t : Nat} (h : e < f) : Before (.hop start e s) (.hop start f t)

theorem Before.ne {a b : Occurrence} (h : a.Before b) : a ≠ b := by
  rintro rfl
  cases h with
  | start h => exact Nat.lt_irrefl _ h
  | edge h => exact Nat.lt_irrefl _ h

end Occurrence

namespace NodePattern

/-- The node has the label of the pattern and, for every key of it, the value listed last. -/
structure Describes (p : NodePattern) (n : Node) : Prop where
  label : ∀ label, p.label = some label → n.label = some label
  properties : ∀ key value, p.properties.reverse.lookup key = some value →
    ∃ held, n.properties.get? key = some held ∧ held.same value = true

/-- The name of the pattern is free in the row, or bound to the node. -/
def Agrees (p : NodePattern) (row : Row) (id : Nat) : Prop :=
  ∀ name binding, p.name = some name → row.get? name = some binding → binding = .node id

/-- The node is described by the pattern, and it is what the row binds the name to, if it does. -/
structure MetBy (p : NodePattern) (g : Graph) (row : Row) (id : Nat) : Prop where
  node : ∃ n, g.node? id = some n ∧ p.Describes n
  name : p.Agrees row id

end NodePattern

namespace Pattern

/-- The pattern occurs at the place, with what the row binds. The name at the end may be the one at
the start, so it is compared after that is bound. -/
inductive Occurs (g : Graph) (row : Row) : Pattern → Occurrence → Prop
  | node {start : NodePattern} {s : Nat} (hstart : start.MetBy g row s) :
      Occurs g row ⟨start, none⟩ (.node s)
  | hop {start stop : NodePattern} {r : RelationshipPattern} {s t : Nat} {e : Edge}
      (hstart : start.MetBy g row s) (he : e ∈ g.edges) (hleads : e.Leads s t r.direction)
      (htype : ∀ edgeType, r.edgeType = some edgeType → e.edgeType = edgeType)
      (hname : ∀ name bound, r.name = some name →
        (row.bind start.name (.node s)).get? name = some (.edge bound) → bound = e.id)
      (hstop : stop.MetBy g (row.bind start.name (.node s)) t) :
      Occurs g row ⟨start, some (r, stop)⟩ (.hop s e.id t)

def relationshipName (p : Pattern) : Option String := p.hop.bind fun hop => hop.1.name

def stopName (p : Pattern) : Option String := p.hop.bind fun hop => hop.2.name

def rowAt (p : Pattern) (row : Row) : Occurrence → Row
  | .node s => row.bind p.start.name (.node s)
  | .hop s e t => ((row.bind p.start.name (.node s)).bind p.stopName (.node t)).bind
      p.relationshipName (.edge e)

/-- The rows are those of the places with a property, one for each of them and in order. -/
def Lists (p : Pattern) (row : Row) (P : Occurrence → Prop) (rows : List Row) : Prop :=
  ∃ found : List Occurrence, rows = found.map (p.rowAt row) ∧ found.Pairwise Occurrence.Before ∧
    ∀ o, o ∈ found ↔ P o

end Pattern

variable {g : Graph} {row : Row}

namespace NodePattern

variable {p : NodePattern} {id : Nat}

theorem admits_iff_describes {n : Node} : p.admits n = true ↔ p.Describes n := by
  have hlabel : p.label.all n.hasLabel = true ↔
      ∀ label, p.label = some label → n.label = some label := by
    simp [Option.all_eq_true, Node.hasLabel]
  have hproperties : n.properties.includes p.propertyMap = true ↔
      ∀ key value, p.properties.reverse.lookup key = some value →
        ∃ held, n.properties.get? key = some held ∧ held.same value = true := by
    simp only [PropertyMap.includes, List.all_eq_true, Option.any_eq_true, propertyMap,
      ← SortedMap.get?_ofList]
    constructor
    · intro hall key value hget
      exact hall (key, value) (SortedMap.mem_entries_iff.mpr hget)
    · rintro hall ⟨key, value⟩ hentry
      exact hall key value (SortedMap.mem_entries_iff.mp hentry)
  rw [admits, Bool.and_eq_true, hlabel, hproperties]
  constructor
  · rintro ⟨hlabel, hproperties⟩
    exact ⟨hlabel, hproperties⟩
  · rintro ⟨hlabel, hproperties⟩
    exact ⟨hlabel, hproperties⟩

theorem describes_of_unconstrained (h : p.isUnconstrained = true) (n : Node) : p.Describes n := by
  obtain ⟨hlabel, hproperties⟩ := Bool.and_eq_true_iff.mp h
  rw [Option.isNone_iff_eq_none] at hlabel
  rw [List.isEmpty_iff] at hproperties
  constructor
  · intro label hsome
    rw [hlabel] at hsome
    cases hsome
  · intro key value hlookup
    rw [hproperties] at hlookup
    cases hlookup

theorem MetBy.lt (h : p.MetBy g row id) : id < g.nodeCount := by
  obtain ⟨n, hn, _⟩ := h.node
  exact Graph.node?_lt hn

theorem boundNode_some {k : Nat} (h : p.boundNode row = .ok (some k)) :
    ∃ name, p.name = some name ∧ row.get? name = some (.node k) := by
  unfold boundNode at h
  split at h
  case h_1 => cases h
  case h_2 name hname =>
    split at h
    case h_1 => cases h
    case h_2 bound hget =>
      cases h
      exact ⟨name, hname, hget⟩
    case h_3 => cases h

theorem agrees_of_bound (h : p.boundNode row = .ok (some id)) : p.Agrees row id := by
  intro name binding hname hget
  simp only [boundNode, hname, hget] at h
  cases binding with
  | node k =>
    cases h
    rfl
  | edge k => cases h

theorem agrees_of_free (h : p.boundNode row = .ok none) (id : Nat) : p.Agrees row id := by
  intro name binding hname hget
  simp only [boundNode, hname, hget] at h
  cases binding <;> cases h

theorem agrees_iff_of_bound {k : Nat} (h : p.boundNode row = .ok (some k)) :
    p.Agrees row id ↔ k = id := by
  constructor
  · intro hagrees
    obtain ⟨name, hname, hget⟩ := boundNode_some h
    exact Binding.node.inj (hagrees name _ hname hget)
  · rintro rfl
    exact agrees_of_bound h

theorem any_admits_iff : (g.node? id).any p.admits = true ↔
    ∃ n, g.node? id = some n ∧ p.Describes n := by
  simp only [Option.any_eq_true, admits_iff_describes]

theorem fits_iff {b : Bool} (h : p.fits g row id = .ok b) : b = true ↔ p.MetBy g row id := by
  obtain ⟨bound, hbound, h⟩ := bind_eq_ok.mp h
  cases bound with
  | none =>
    cases h
    rw [any_admits_iff]
    constructor
    · intro hnode
      exact ⟨hnode, agrees_of_free hbound id⟩
    · intro hmet
      exact hmet.node
  | some k =>
    cases h
    rw [Bool.and_eq_true, beq_iff_eq, any_admits_iff]
    constructor
    · rintro ⟨hk, hnode⟩
      exact ⟨hnode, (agrees_iff_of_bound hbound).mpr hk⟩
    · intro hmet
      exact ⟨(agrees_iff_of_bound hbound).mp hmet.name, hmet.node⟩

theorem candidates_listed {ids : List Nat} (h : p.candidates g row = .ok ids) :
    ids.Pairwise (· < ·) ∧ ∀ id, id ∈ ids ↔ p.MetBy g row id := by
  obtain ⟨bound, hbound, h⟩ := bind_eq_ok.mp h
  cases bound with
  | none =>
    cases h
    refine ⟨g.findNodes_ascending _ _, ?_⟩
    intro id
    rw [Graph.mem_findNodes]
    constructor
    · rintro ⟨n, hn, hadmits⟩
      exact ⟨⟨n, hn, admits_iff_describes.mp hadmits⟩, agrees_of_free hbound id⟩
    · rintro ⟨⟨n, hn, hdescribes⟩, _⟩
      exact ⟨n, hn, admits_iff_describes.mpr hdescribes⟩
  | some k =>
    obtain ⟨fits, hfits, h⟩ := bind_eq_ok.mp h
    cases h
    have hself : ∀ id, p.MetBy g row id → id = k := by
      intro id hmet
      exact ((agrees_iff_of_bound hbound).mp hmet.name).symm
    cases fits with
    | true =>
      refine ⟨List.pairwise_singleton _ _, ?_⟩
      intro id
      rw [if_pos rfl, List.mem_singleton]
      constructor
      · rintro rfl
        exact (fits_iff hfits).mp rfl
      · exact hself id
    | false =>
      refine ⟨.nil, ?_⟩
      intro id
      constructor
      · intro hid
        cases hid
      · intro hmet
        rw [hself id hmet] at hmet
        cases (fits_iff hfits).mpr hmet

def NotEdge (p : NodePattern) (row : Row) : Prop :=
  ∀ name edge, p.name = some name → row.get? name ≠ some (.edge edge)

theorem NotEdge.bind (h : p.NotEdge row) (name : Option String) (id : Nat) :
    p.NotEdge (row.bind name (.node id)) := by
  intro other edge hother
  by_cases hname : name = some other
  · rw [Row.get?_bind_self _ _ hname]
    simp
  · rw [Row.get?_bind_other _ _ hname]
    exact h other edge hother

theorem NotEdge.boundNode_ok (h : p.NotEdge row) : ∃ bound, p.boundNode row = .ok bound := by
  unfold boundNode
  split
  case h_1 => exact ⟨none, rfl⟩
  case h_2 name hname =>
    split
    case h_1 => exact ⟨none, rfl⟩
    case h_2 id _ => exact ⟨some id, rfl⟩
    case h_3 edge hget => exact absurd hget (h name edge hname)

theorem NotEdge.fits_ok (h : p.NotEdge row) (g : Graph) (id : Nat) :
    ∃ fits, p.fits g row id = .ok fits := by
  obtain ⟨bound, hbound⟩ := h.boundNode_ok
  rw [fits, hbound]
  cases bound with
  | none => exact ⟨_, rfl⟩
  | some k => exact ⟨_, rfl⟩

theorem NotEdge.candidates_ok (h : p.NotEdge row) (g : Graph) :
    ∃ ids, p.candidates g row = .ok ids := by
  obtain ⟨bound, hbound⟩ := h.boundNode_ok
  rw [candidates, hbound]
  cases bound with
  | none => exact ⟨_, rfl⟩
  | some k =>
    obtain ⟨fits, hfits⟩ := h.fits_ok g k
    refine ⟨if fits then [k] else [], ?_⟩
    show (do return if ← p.fits g row k then [k] else [] : Evaluation (List Nat)) = _
    rw [hfits]
    rfl

/-- In a row of nodes a name agrees with a node if it is not bound to another. -/
theorem agrees_iff_of_nodes (hrow : row.Nodes g) :
    p.Agrees row id ↔ ∀ bound, p.name.bind row.node? = some bound → bound = id := by
  constructor
  · intro hagrees bound hbound
    obtain ⟨name, hname, hnode⟩ := Option.bind_eq_some_iff.mp hbound
    exact Binding.node.inj (hagrees name _ hname (Row.get?_of_node? hnode))
  · intro hsame name binding hname hget
    obtain ⟨k, _, rfl⟩ := hrow name binding hget
    rw [hsame k (by simp [hname, Row.node?, hget])]

end NodePattern

theorem Row.Nodes.notEdge (hrow : row.Nodes g) (p : NodePattern) : p.NotEdge row := by
  intro name edge _ hget
  obtain ⟨_, _, hnode⟩ := hrow name _ hget
  cases hnode

namespace Pattern

open Occurrence

variable {p : Pattern} {P Q : Occurrence → Prop} {rows : List Row}

theorem Lists.congr (h : p.Lists row P rows) (hiff : ∀ o, P o ↔ Q o) : p.Lists row Q rows := by
  obtain ⟨found, hrows, hordered, hfound⟩ := h
  refine ⟨found, hrows, hordered, ?_⟩
  intro o
  rw [hfound, hiff]

theorem lists_nil (hnone : ∀ o, ¬P o) : p.Lists row P [] := by
  refine ⟨[], rfl, .nil, ?_⟩
  intro o
  constructor
  · intro ho
    cases ho
  · intro ho
    exact absurd ho (hnone o)

theorem lists_singleton (o : Occurrence) : p.Lists row (· = o) [p.rowAt row o] :=
  ⟨[o], rfl, List.pairwise_singleton _ _, fun _ => List.mem_singleton⟩

theorem Lists.append {rest : List Row} (hfirst : p.Lists row P rows) (hrest : p.Lists row Q rest)
    (hbefore : ∀ a b, P a → Q b → a.Before b) :
    p.Lists row (fun o => P o ∨ Q o) (rows ++ rest) := by
  obtain ⟨found, rfl, hordered, hfound⟩ := hfirst
  obtain ⟨others, rfl, hothers, hmem⟩ := hrest
  refine ⟨found ++ others, List.map_append.symm, ?_, ?_⟩
  · rw [List.pairwise_append]
    refine ⟨hordered, hothers, ?_⟩
    intro a ha b hb
    exact hbefore a b ((hfound a).mp ha) ((hmem b).mp hb)
  · intro o
    rw [List.mem_append, hfound, hmem]

theorem Lists.collect {α : Type} {f : α → Evaluation (List Row)} {below : α → α → Prop}
    {kind : α → Occurrence → Prop} {items : List α} (hitems : items.Pairwise below)
    (hparts : ∀ a ∈ items, ∀ part, f a = .ok part → p.Lists row (kind a) part)
    (hbefore : ∀ a b, below a b → ∀ o o', kind a o → kind b o' → o.Before o')
    (h : FieldGraph.collect f items = .ok rows) :
    p.Lists row (fun o => ∃ a ∈ items, kind a o) rows := by
  induction items generalizing rows with
  | nil =>
    cases h
    apply lists_nil
    rintro o ⟨a, ha, _⟩
    cases ha
  | cons a items ih =>
    obtain ⟨first, hfirst, h⟩ := bind_eq_ok.mp h
    obtain ⟨others, hothers, h⟩ := bind_eq_ok.mp h
    cases h
    obtain ⟨hbelow, hitems⟩ := List.pairwise_cons.mp hitems
    obtain ⟨hhead, htail⟩ := List.forall_mem_cons.mp hparts
    have hall := (hhead first hfirst).append (ih hitems htail hothers) (by
      rintro o o' ho ⟨b, hb, ho'⟩
      exact hbefore a b (hbelow b hb) o o' ho ho')
    apply hall.congr
    intro o
    rw [List.exists_mem_cons_iff]

variable {start stop : NodePattern} {r : RelationshipPattern} {s : Nat}

theorem allows_iff {edge : Nat} : r.allows row edge = true ↔
    ∀ name bound, r.name = some name → row.get? name = some (.edge bound) → bound = edge := by
  constructor
  · intro h name bound hname hbound
    simpa [RelationshipPattern.allows, hname, hbound] using h
  · intro h
    unfold RelationshipPattern.allows
    split
    case h_1 bound hbound =>
      obtain ⟨name, hname, hget⟩ := Option.bind_eq_some_iff.mp hbound
      exact beq_iff_eq.mpr (h name bound hname hget)
    case h_2 => rfl

/-- Along one edge the pattern occurs at most once. -/
theorem hopTo_lists {hop : Nat × Nat}
    (h : hopTo g r stop (row.bind start.name (.node s)) hop = .ok rows) :
    Lists ⟨start, some (r, stop)⟩ row (fun o => o = .hop s hop.1 hop.2 ∧
      r.allows (row.bind start.name (.node s)) hop.1 = true ∧
      stop.MetBy g (row.bind start.name (.node s)) hop.2) rows := by
  unfold hopTo at h
  dsimp only at h
  split at h
  case isTrue hallows =>
    obtain ⟨fits, hfits, h⟩ := bind_eq_ok.mp h
    cases fits with
    | true =>
      cases h
      apply (lists_singleton (.hop s hop.1 hop.2)).congr
      intro o
      constructor
      · intro ho
        exact ⟨ho, hallows, (NodePattern.fits_iff hfits).mp rfl⟩
      · intro ho
        exact ho.1
    | false =>
      cases h
      apply lists_nil
      rintro o ⟨_, _, hmet⟩
      cases (NodePattern.fits_iff hfits).mpr hmet
  case isFalse hrefused =>
    cases h
    apply lists_nil
    rintro o ⟨_, hallows, _⟩
    exact hrefused hallows

theorem occurs_hop_iff {o : Occurrence} (hstart : start.MetBy g row s) :
    (∃ hop ∈ g.neighbors s r.direction r.edgeType, o = .hop s hop.1 hop.2 ∧
      r.allows (row.bind start.name (.node s)) hop.1 = true ∧
      stop.MetBy g (row.bind start.name (.node s)) hop.2) ↔
      o.start = s ∧ Occurs g row ⟨start, some (r, stop)⟩ o := by
  constructor
  · rintro ⟨_, hhop, rfl, hallows, hstop⟩
    obtain ⟨e, he, hleaves, htype, rfl⟩ := Graph.mem_neighbors.mp hhop
    have hleads : e.Leads s (e.otherEnd s) r.direction := Edge.leads_iff.mpr ⟨hleaves, rfl⟩
    refine ⟨rfl, .hop hstart he hleads ?_ (allows_iff.mp hallows) hstop⟩
    simpa [Option.all_eq_true] using htype
  · rintro ⟨rfl, hoccurs⟩
    cases hoccurs with
    | @hop _ _ _ s t e _ he hleads htype hname hstop =>
      obtain ⟨hleaves, rfl⟩ := Edge.leads_iff.mp hleads
      refine ⟨(e.id, e.otherEnd s), Graph.mem_neighbors.mpr ⟨e, he, hleaves, ?_, rfl⟩, rfl,
        allows_iff.mpr hname, hstop⟩
      simpa [Option.all_eq_true] using htype

theorem matchFrom_lists (hstart : p.start.MetBy g row s) (h : p.matchFrom g row s = .ok rows) :
    p.Lists row (fun o => o.start = s ∧ p.Occurs g row o) rows := by
  obtain ⟨start, hop⟩ := p
  cases hop with
  | none =>
    cases h
    apply (lists_singleton (.node s)).congr
    intro o
    constructor
    · rintro rfl
      exact ⟨rfl, .node hstart⟩
    · rintro ⟨rfl, hoccurs⟩
      cases hoccurs
      rfl
  | some hop =>
    obtain ⟨r, stop⟩ := hop
    have hall := Lists.collect (g.neighbors_ascending s r.direction r.edgeType)
      (fun hop _ part hpart => hopTo_lists hpart) (by
        rintro a b hlt _ _ ⟨rfl, _⟩ ⟨rfl, _⟩
        exact .edge hlt) h
    apply hall.congr
    intro o
    exact occurs_hop_iff hstart

theorem Occurs.start_met {o : Occurrence} (h : p.Occurs g row o) : p.start.MetBy g row o.start := by
  cases h with
  | node hstart => exact hstart
  | hop hstart => exact hstart

theorem matches_lists (h : p.matches g row = .ok rows) : p.Lists row (p.Occurs g row) rows := by
  obtain ⟨ids, hids, h⟩ := bind_eq_ok.mp h
  obtain ⟨hordered, hmet⟩ := NodePattern.candidates_listed hids
  have hall := Lists.collect hordered
    (fun s hs part hpart => matchFrom_lists ((hmet s).mp hs) hpart) (by
      rintro a b hlt o o' ⟨rfl, _⟩ ⟨rfl, _⟩
      exact .start hlt) h
  apply hall.congr
  intro o
  constructor
  · rintro ⟨_, _, _, hoccurs⟩
    exact hoccurs
  · intro hoccurs
    exact ⟨o.start, (hmet _).mpr hoccurs.start_met, rfl, hoccurs⟩

theorem hopTo_ok {bound : Row} (hstop : stop.NotEdge bound) (hop : Nat × Nat) :
    ∃ part, hopTo g r stop bound hop = .ok part := by
  obtain ⟨fits, hfits⟩ := hstop.fits_ok g hop.2
  unfold hopTo
  dsimp only
  split
  case isTrue =>
    rw [hfits]
    cases fits with
    | true => exact ⟨_, rfl⟩
    | false => exact ⟨_, rfl⟩
  case isFalse => exact ⟨_, rfl⟩

theorem matches_ok (hstart : p.start.NotEdge row)
    (hstop : ∀ hop, p.hop = some hop → hop.2.NotEdge row) : ∃ rows, p.matches g row = .ok rows := by
  obtain ⟨ids, hids⟩ := hstart.candidates_ok g
  rw [Pattern.matches, hids]
  apply exists_collect
  intro s _
  unfold matchFrom
  dsimp only
  split
  case h_1 => exact ⟨_, rfl⟩
  case h_2 r stop hhop =>
    apply exists_collect
    intro hop _
    exact hopTo_ok ((hstop _ hhop).bind p.start.name s) hop

theorem matches_of_nodes (hrow : row.Nodes g) (p : Pattern) :
    ∃ rows, p.matches g row = .ok rows ∧
      ∀ row', row' ∈ rows ↔ ∃ o, p.Occurs g row o ∧ row' = p.rowAt row o := by
  obtain ⟨rows, h⟩ : ∃ rows, p.matches g row = .ok rows :=
    matches_ok (hrow.notEdge p.start) fun hop _ => hrow.notEdge hop.2
  obtain ⟨found, rfl, _, hfound⟩ := matches_lists h
  refine ⟨_, h, ?_⟩
  intro row'
  rw [List.mem_map]
  constructor
  · rintro ⟨o, ho, rfl⟩
    exact ⟨o, (hfound o).mp ho, rfl⟩
  · rintro ⟨o, ho, rfl⟩
    exact ⟨o, (hfound o).mpr ho, rfl⟩

/-- Matching makes one row of each place where the pattern occurs, by start node and then by edge,
and none of any other place. It gives rows at all unless the name of a node is bound to an edge. -/
theorem matches_exactly_occurrences (p : Pattern) (g : Graph) (row : Row) :
    (∀ rows, p.matches g row = .ok rows → ∃ found : List Occurrence,
      rows = found.map (p.rowAt row) ∧ found.Pairwise Occurrence.Before ∧ found.Nodup ∧
        ∀ o, o ∈ found ↔ p.Occurs g row o) ∧
    ((∀ name edge, p.start.name = some name ∨ p.stopName = some name →
      row.get? name ≠ some (.edge edge)) → ∃ rows, p.matches g row = .ok rows) := by
  constructor
  · intro rows h
    obtain ⟨found, hrows, hordered, hfound⟩ := matches_lists h
    exact ⟨found, hrows, hordered, hordered.imp Before.ne, hfound⟩
  · intro hfree
    apply matches_ok
    · intro name edge hname
      exact hfree name edge (.inl hname)
    · intro hop hhop name edge hname
      refine hfree name edge (.inr ?_)
      rw [stopName, hhop]
      exact hname

def tangle : Graph :=
  ((((Graph.empty.addNode none .empty).addNode none .empty).linkNodes 0 0 "knows"
    (by decide)).linkNodes 0 1 "knows" (by decide)).linkNodes 1 0 "knows" (by decide)

def acquainted : Pattern :=
  ⟨⟨some "a", none, []⟩, some (⟨some "r", some "knows", .both⟩, ⟨some "b", none, []⟩)⟩

/-- The loop is found once although it both leaves and enters its node, and each of the parallel
edges from both its ends. -/
theorem loop_occurs_once :
    ∃ found : List Occurrence, found.Nodup ∧ (∀ o, o ∈ found ↔ acquainted.Occurs tangle [] o) ∧
      found.map (acquainted.rowAt []) =
        [[("r", .edge 0), ("b", .node 0), ("a", .node 0)],
          [("r", .edge 1), ("b", .node 1), ("a", .node 0)],
          [("r", .edge 2), ("b", .node 1), ("a", .node 0)],
          [("r", .edge 1), ("b", .node 0), ("a", .node 1)],
          [("r", .edge 2), ("b", .node 0), ("a", .node 1)]] := by
  obtain ⟨hrows, hok⟩ := matches_exactly_occurrences acquainted tangle []
  obtain ⟨rows, h⟩ := hok fun name edge _ hget => by cases hget
  obtain ⟨found, rfl, _, hnodup, hfound⟩ := hrows rows h
  refine ⟨found, hnodup, hfound, ?_⟩
  have hall := congrArg Except.toOption h
  exact Option.some.inj (hall.symm.trans (by decide +kernel))

end Pattern

end FieldGraph
