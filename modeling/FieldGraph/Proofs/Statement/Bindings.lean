import FieldGraph.Proofs.Statement.Clauses
import FieldGraph.Proofs.Statement.Occurrences
import FieldGraph.Proofs.Store.Growth

/-!
# Bindings across clauses

A clause makes rows of the rows before it. Whatever a row binds, the rows made of it bind as
before, with one exception: the variable of the relationship always stands for an edge in the end,
also if it stood for a node, or for another edge than the one that a merge has added.
-/
namespace FieldGraph

variable {g : Graph} {d e : Draft} {row row' : Row}

namespace Row

/-- What the first row binds the variable to, the second one binds it to as well. -/
def Keeps (row row' : Row) (name : String) : Prop :=
  ∀ binding, row.get? name = some binding → row'.get? name = some binding

def Extends (row row' : Row) : Prop := ∀ name, row.Keeps row' name

theorem Extends.refl (row : Row) : row.Extends row := fun _ _ h => h

theorem Extends.trans {a b c : Row} (hab : a.Extends b) (hbc : b.Extends c) : a.Extends c :=
  fun name binding h => hbc name binding (hab name binding h)

/-- The second row keeps what the first one binds, but for the variable of the relationship. That
stands for an edge, which is the one it stood for before unless it is a fresh one. -/
structure Carries (relationship : Option String) (fresh : Nat → Prop) (row row' : Row) : Prop where
  others : ∀ name, relationship ≠ some name → row.Keeps row' name
  edge : ∀ name, relationship = some name → ∃ edge, row'.get? name = some (.edge edge) ∧
    ∀ bound, row.get? name = some (.edge bound) → bound = edge ∨ fresh edge

variable {relationship : Option String} {fresh : Nat → Prop}

theorem Carries.mono {fresh' : Nat → Prop} (h : Carries relationship fresh row row')
    (himp : ∀ edge, fresh edge → fresh' edge) : Carries relationship fresh' row row' := by
  refine ⟨h.others, fun name hname => ?_⟩
  obtain ⟨edge, hedge, hsame⟩ := h.edge name hname
  exact ⟨edge, hedge, fun bound hbound => (hsame bound hbound).imp_right (himp edge)⟩

/-- A binding is lost exactly if it is that of the relationship, to a node or to another edge than
the fresh one. -/
theorem Carries.not_extends_iff (h : Carries relationship fresh row row') :
    ¬row.Extends row' ↔ ∃ name binding edge, relationship = some name ∧
      row.get? name = some binding ∧ row'.get? name = some (.edge edge) ∧
      ((∃ id, binding = .node id) ∨ ∃ bound, binding = .edge bound ∧ bound ≠ edge ∧
        fresh edge) := by
  constructor
  · intro hlost
    obtain ⟨name, hname⟩ := not_forall.mp hlost
    obtain ⟨binding, hlost⟩ := not_forall.mp hname
    obtain ⟨hget, hlost⟩ := Classical.not_imp.mp hlost
    have hself : relationship = some name :=
      Classical.byContradiction fun hother => hlost (h.others name hother binding hget)
    obtain ⟨edge, hafter, hsame⟩ := h.edge name hself
    refine ⟨name, binding, edge, hself, hget, hafter, ?_⟩
    cases binding with
    | node id => exact .inl ⟨id, rfl⟩
    | edge bound =>
      have hne : bound ≠ edge := by
        rintro rfl
        exact hlost hafter
      exact .inr ⟨bound, rfl, hne, (hsame bound hget).resolve_left hne⟩
  · rintro ⟨name, binding, edge, _, hget, hafter, hwhy⟩ hextends
    have hsame := Option.some.inj ((hextends name binding hget).symm.trans hafter)
    rcases hwhy with ⟨id, rfl⟩ | ⟨bound, rfl, hne, _⟩
    · cases hsame
    · exact hne (Binding.edge.inj hsame)

end Row

namespace NodePattern

variable {p : NodePattern} {id : Nat}

theorem Agrees.extends (h : p.Agrees row id) : row.Extends (row.bind p.name (.node id)) := by
  intro name binding hget
  by_cases hname : p.name = some name
  · rw [Row.get?_bind_self _ _ hname, h name binding hname hget]
  · rw [Row.get?_bind_other _ _ hname, hget]

theorem create_extends (h : p.create d row = .ok (e, row', id)) : row.Extends row' := by
  rcases create_cases h with ⟨_, _, _, rfl⟩ | ⟨hbound, _, _, rfl⟩
  · exact .refl _
  · exact (agrees_of_free hbound id).extends

end NodePattern

namespace Pattern

variable {p : Pattern} {r : RelationshipPattern} {stop : NodePattern} {fresh : Nat → Prop}

theorem carries_node (hhop : p.hop = none) (h : row.Extends row') :
    Row.Carries p.relationshipName fresh row row' := by
  refine ⟨fun name _ => h name, fun name hname => ?_⟩
  rw [relationshipName, hhop] at hname
  cases hname

theorem carries_hop {edge : Nat} (hhop : p.hop = some (r, stop)) (h : row.Extends row')
    (hedge : ∀ name bound, r.name = some name → row.get? name = some (.edge bound) →
      bound = edge ∨ fresh edge) :
    Row.Carries p.relationshipName fresh row (row'.bind r.name (.edge edge)) := by
  have hname : p.relationshipName = r.name := by
    rw [relationshipName, hhop]
    rfl
  rw [hname]
  refine ⟨fun name hother binding hget => ?_, fun name hself => ?_⟩
  · rw [Row.get?_bind_other _ _ hother]
    exact h name binding hget
  · exact ⟨edge, Row.get?_bind_self _ _ hself, fun bound => hedge name bound hself⟩

theorem matches_carries {found : List Row} (h : p.matches g row = .ok found)
    (hrow : row' ∈ found) :
    Row.Carries p.relationshipName (fun _ => False) row row' := by
  obtain ⟨places, rfl, _, hplaces⟩ := matches_lists h
  obtain ⟨o, ho, rfl⟩ := List.mem_map.mp hrow
  cases (hplaces o).mp ho with
  | node hstart => exact carries_node rfl hstart.name.extends
  | @hop start stop r s t e hstart _ _ _ hname hstop =>
    have hfirst := hstart.name.extends
    refine carries_hop rfl (hfirst.trans hstop.name.extends) ?_
    intro name bound hself hbound
    exact .inl (hname name bound hself (hfirst name _ hbound))

/-- A row that a pattern is created for loses no edge but for one that has been added. -/
theorem create_carries (h : p.create d row = .ok (e, row')) :
    Row.Carries p.relationshipName (d.graph.edgeCount ≤ ·) row row' := by
  cases created h with
  | node hstart => exact carries_node rfl (NodePattern.create_extends hstart)
  | hop hstart hstop _ _ hadd =>
    have hextends := (NodePattern.create_extends hstart).trans (NodePattern.create_extends hstop)
    have hgrows := (NodePattern.create_grows hstart).trans (NodePattern.create_grows hstop)
    exact carries_hop rfl hextends fun _ _ _ _ => .inr hgrows.graph.edgeCount_le

end Pattern

namespace Clause

variable {access : Access} {c : Clause} {s t : Progress} {found : List Row}

def relationshipName : Clause → Option String
  | .merge p => p.relationshipName
  | .find p _ => p.relationshipName
  | .result _ => none

/-- The rows that a clause makes of one of the rows before it, in a graph which may have grown for
the rows before that one. -/
inductive Turns (access : Access) (g : Graph) : Clause → Row → List Row → Prop
  | find {p : Pattern} {filter : List Comparison} {row : Row} {found : List Row}
      (h : findRows g p filter row = .ok found) : Turns access g (.find p filter) row found
  | merge {p : Pattern} {d e : Draft} {row : Row} {found : List Row} (hg : g.Extends d.graph)
      (h : mergeRow access p d row = .ok (e, found)) : Turns access g (.merge p) row found
  | result (items : List ReturnItem) (row : Row) : Turns access g (.result items) row [row]

theorem mergeRows_parts {p : Pattern} {rows : List Row}
    (h : mergeRows access p d rows = .ok (e, found)) (hg : g.Extends d.graph) :
    ∃ parts : List (Row × List Row), parts.map Prod.fst = rows ∧
      parts.flatMap Prod.snd = found ∧
      ∀ part ∈ parts, Turns access g (.merge p) part.1 part.2 := by
  induction rows generalizing d found with
  | nil =>
    cases h
    exact ⟨[], rfl, rfl, by simp⟩
  | cons row rows ih =>
    obtain ⟨⟨d₁, first⟩, hrow, h⟩ := bind_eq_ok.mp h
    obtain ⟨⟨d₂, others⟩, hrest, h⟩ := bind_eq_ok.mp h
    cases h
    obtain ⟨parts, rfl, rfl, hparts⟩ := ih hrest (hg.trans (mergeRow_grows hrow).graph)
    exact ⟨(row, first) :: parts, rfl, rfl,
      List.forall_mem_cons.mpr ⟨.merge hg hrow, hparts⟩⟩

theorem run_parts (h : c.run access s = .ok t) :
    ∃ parts : List (Row × List Row), parts.map Prod.fst = s.rows ∧
      parts.flatMap Prod.snd = t.rows ∧
      ∀ part ∈ parts, Turns access s.draft.graph c part.1 part.2 := by
  cases c with
  | find p filter =>
    obtain ⟨rows, hrows, h⟩ := bind_eq_ok.mp h
    cases h
    obtain ⟨parts, hfst, hsnd, hparts⟩ := collect_parts hrows
    exact ⟨parts, hfst, hsnd, fun part hpart => .find (hparts part hpart)⟩
  | merge p =>
    obtain ⟨⟨d, rows⟩, hrows, h⟩ := bind_eq_ok.mp h
    cases h
    exact mergeRows_parts hrows (.refl _)
  | result items =>
    obtain ⟨rows, _, h⟩ := bind_eq_ok.mp h
    cases h
    refine ⟨s.rows.map fun row => (row, [row]), ?_, ?_, ?_⟩
    · rw [List.map_map]
      exact List.map_id s.rows
    · simp [List.flatMap_map]
    · intro part hpart
      obtain ⟨row, _, rfl⟩ := List.mem_map.mp hpart
      exact .result items row

/-- The edges that a clause may have added to a graph. -/
def MayAdd (c : Clause) (g : Graph) (edge : Nat) : Prop := c.isMerge = true ∧ g.edgeCount ≤ edge

theorem carries_of_mergeRow {p : Pattern} (h : mergeRow access p d row = .ok (e, found))
    (hrow : row' ∈ found) :
    Row.Carries p.relationshipName (d.graph.edgeCount ≤ ·) row row' := by
  obtain ⟨matched, hmatched, h⟩ := bind_eq_ok.mp h
  split at h
  case h_1 =>
    split at h
    case h_1 => cases h
    case h_2 =>
      obtain ⟨⟨d₁, created⟩, hcreate, h⟩ := bind_eq_ok.mp h
      cases h
      exact List.mem_singleton.mp hrow ▸ Pattern.create_carries hcreate
  case h_2 =>
    cases h
    exact (Pattern.matches_carries hmatched hrow).mono fun _ => False.elim

theorem mem_of_findRows {p : Pattern} {filter : List Comparison}
    (h : findRows g p filter row = .ok found) (hrow : row' ∈ found) :
    ∃ matched, p.matches g row = .ok matched ∧ row' ∈ matched := by
  obtain ⟨matched, hmatched, h⟩ := bind_eq_ok.mp h
  obtain ⟨candidate, hcandidate, part, hpart, hrow⟩ := mem_collect h hrow
  obtain ⟨passes, _, hpart⟩ := bind_eq_ok.mp hpart
  cases passes with
  | true =>
    cases hpart
    exact ⟨matched, hmatched, List.mem_singleton.mp hrow ▸ hcandidate⟩
  | false =>
    cases hpart
    cases hrow

/-- What a clause makes of a row keeps the bindings of the row, but for the relationship. -/
theorem Turns.carries (h : Turns access g c row found) (hrow : row' ∈ found) :
    Row.Carries c.relationshipName (c.MayAdd g) row row' := by
  cases h with
  | find h =>
    obtain ⟨matched, hmatched, hrow⟩ := mem_of_findRows h hrow
    exact (Pattern.matches_carries hmatched hrow).mono fun _ => False.elim
  | merge hg h =>
    refine (carries_of_mergeRow h hrow).mono fun edge hedge => ?_
    exact ⟨rfl, Nat.le_trans hg.edgeCount_le hedge⟩
  | result items =>
    refine ⟨fun name _ => ?_, fun name hname => ?_⟩
    · rw [List.mem_singleton.mp hrow]
      exact Row.Extends.refl row name
    · cases hname

/-- Every row after a clause comes from a row before it and keeps all its bindings, unless the
variable of the relationship stood for a node, or for another edge than the one that a merge has
added for the row; then it loses just that binding. -/
theorem rebinds_relationship_iff (h : c.run access s = .ok t) :
    ∃ parts : List (Row × List Row), parts.map Prod.fst = s.rows ∧
      parts.flatMap Prod.snd = t.rows ∧ ∀ row found, (row, found) ∈ parts →
        Turns access s.draft.graph c row found ∧ ∀ row' ∈ found,
          (∀ name, c.relationshipName ≠ some name → row.Keeps row' name) ∧
          (¬row.Extends row' ↔ ∃ name binding edge, c.relationshipName = some name ∧
            row.get? name = some binding ∧ row'.get? name = some (.edge edge) ∧
            ((∃ id, binding = .node id) ∨ ∃ bound, binding = .edge bound ∧ bound ≠ edge ∧
              c.MayAdd s.draft.graph edge)) := by
  obtain ⟨parts, hfst, hsnd, hparts⟩ := run_parts h
  refine ⟨parts, hfst, hsnd, fun row found hpart => ⟨hparts _ hpart, fun row' hrow => ?_⟩⟩
  have hcarries := (hparts _ hpart).carries hrow
  exact ⟨hcarries.others, hcarries.not_extends_iff⟩

def linkedPost : Graph :=
  memoryStore.after .empty ["MERGE (b:User \x7bid: 2\x7d)-[:user]->(a:Post \x7bid: 1\x7d)"]

def backward (edgeType : String) : Pattern :=
  ⟨⟨some "a", none, []⟩, some (⟨some "r", some edgeType, .outgoing⟩, ⟨some "b", none, []⟩)⟩

theorem added_edge_takes_variable :
    ∃ g s t row row', linkedPost = g ∧ s.draft.graph = g ∧
      (Clause.merge (backward "likes")).run .write s = .ok t ∧
      s.rows = [row] ∧ t.rows = [row'] ∧ row.get? "r" = some (.edge 0) ∧
      row'.get? "r" = some (.edge 1) ∧ row.Keeps row' "a" ∧ row.Keeps row' "b" ∧
      ¬row.Extends row' := by
  obtain ⟨g, hg, hedges, hmade⟩ : ∃ g, linkedPost = g ∧ g.edgeCount = 1 ∧
      ((Clause.merge (backward "likes")).run .write
        ⟨⟨g, .zero⟩, [[("r", .edge 0), ("a", .node 1), ("b", .node 0)]], .empty⟩).toOption.map
        Progress.rows = some [[("r", .edge 1), ("r", .edge 0), ("a", .node 1), ("b", .node 0)]] :=
    ⟨_, rfl, by decide +kernel, by decide +kernel⟩
  obtain ⟨t, hrun, hrows⟩ := exists_ok_of_toOption hmade
  obtain ⟨parts, hfst, hsnd, hparts⟩ := rebinds_relationship_iff hrun
  obtain ⟨⟨row, found⟩, hpart, hrow⟩ := List.map_eq_singleton_iff.mp hfst
  rw [hpart, hrows, List.flatMap_singleton] at hsnd
  obtain ⟨_, hall⟩ := hparts row found (hpart ▸ List.mem_singleton_self _)
  obtain ⟨hothers, hlost⟩ := hall _ (hsnd ▸ List.mem_singleton_self _)
  cases hrow
  have hname : (Clause.merge (backward "likes")).relationshipName = some "r" := rfl
  refine ⟨g, _, t, _, _, hg, rfl, hrun, rfl, hrows, ?_, ?_, ?_, ?_, ?_⟩
  · rfl
  · rfl
  · exact hothers "a" (by simp [hname])
  · exact hothers "b" (by simp [hname])
  · refine hlost.mpr ⟨"r", .edge 0, 1, hname, rfl, rfl, .inr ⟨0, rfl, by decide, rfl, ?_⟩⟩
    exact Nat.le_of_eq hedges

def findPost : Clause := .find ⟨⟨some "a", some "Post", []⟩, none⟩ []

def findSame : Clause :=
  .find ⟨⟨some "x", none, []⟩, some (⟨some "a", none, .outgoing⟩, ⟨some "y", none, []⟩)⟩ []

theorem parse_findSame :
    Script.parse "MATCH (a:Post) MATCH (x)-[a]->(y)" = .ok [[findPost, findSame]] :=
  Script.parse_of_lex [⟨.keyword .matchWord, 0⟩, ⟨.openParen, 6⟩, ⟨.identifier "a", 7⟩,
    ⟨.colon, 8⟩, ⟨.identifier "Post", 9⟩, ⟨.closeParen, 13⟩, ⟨.keyword .matchWord, 15⟩,
    ⟨.openParen, 21⟩, ⟨.identifier "x", 22⟩, ⟨.closeParen, 23⟩, ⟨.dash, 24⟩, ⟨.openBracket, 25⟩,
    ⟨.identifier "a", 26⟩, ⟨.closeBracket, 27⟩, ⟨.rightArrow, 28⟩, ⟨.openParen, 30⟩,
    ⟨.identifier "y", 31⟩, ⟨.closeParen, 32⟩]
    (by decide +kernel) fun _ => rfl

theorem found_edge_takes_variable :
    ∃ s t row row',
      Script.parse "MATCH (a:Post) MATCH (x)-[a]->(y)" = .ok [[findPost, findSame]] ∧
      findPost.run .read ⟨⟨linkedPost, .zero⟩, [[]], .empty⟩ = .ok s ∧
      findSame.run .read s = .ok t ∧ s.rows = [row] ∧ t.rows = [row'] ∧
      row.get? "a" = some (.node 1) ∧ row'.get? "a" = some (.edge 0) := by
  obtain ⟨s, hs, hrow⟩ := exists_ok_of_toOption (f := Progress.rows)
    (x := findPost.run .read ⟨⟨linkedPost, .zero⟩, [[]], .empty⟩)
    (b := [[("a", .node 1)]]) (by decide +kernel)
  obtain ⟨t, ht, hrow'⟩ := exists_ok_of_toOption (f := Progress.rows)
    (x := findPost.run .read ⟨⟨linkedPost, .zero⟩, [[]], .empty⟩ >>= (findSame.run .read ·))
    (b := [[("a", .edge 0), ("y", .node 1), ("x", .node 0), ("a", .node 1)]]) (by decide +kernel)
  rw [hs] at ht
  exact ⟨s, t, _, _, parse_findSame, hs, ht, hrow, hrow', rfl, rfl⟩

end Clause

end FieldGraph
