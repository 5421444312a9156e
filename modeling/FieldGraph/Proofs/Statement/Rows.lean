import FieldGraph.Proofs.Graph.Basic

/-!
# Rows that bind nodes

A row of nodes stays one in a graph that has grown, and with a further node.
-/
namespace FieldGraph

namespace Row

def node? (row : Row) (name : String) : Option Nat :=
  match row.get? name with
  | some (.node id) => some id
  | _ => none

/-- Every variable of the row is bound to a node of the graph. -/
def Nodes (g : Graph) (row : Row) : Prop :=
  ∀ name binding, row.get? name = some binding → ∃ id < g.nodeCount, binding = .node id

theorem get?_cons (name : String) (binding : Binding) (row : Row) (other : String) :
    Row.get? ((name, binding) :: row) other =
      if other = name then some binding else row.get? other := by
  by_cases h : other = name
  · simp [Row.get?, h]
  · have hne : (other == name) = false := by simpa using h
    simp [Row.get?, List.lookup_cons, h, hne]

theorem get?_bind (row : Row) (name : Option String) (binding : Binding) (other : String) :
    (row.bind name binding).get? other =
      if name = some other then some binding else row.get? other := by
  cases name with
  | none => rfl
  | some name =>
    rw [Row.bind, get?_cons]
    by_cases h : other = name
    · rw [if_pos h, if_pos (by rw [h])]
    · rw [if_neg h, if_neg fun heq => h (Option.some.inj heq).symm]

theorem get?_bind_self (row : Row) {name : Option String} {other : String} (binding : Binding)
    (h : name = some other) : (row.bind name binding).get? other = some binding := by
  rw [get?_bind, if_pos h]

theorem get?_bind_other (row : Row) {name : Option String} {other : String} (binding : Binding)
    (h : name ≠ some other) : (row.bind name binding).get? other = row.get? other := by
  rw [get?_bind, if_neg h]

theorem node?_cons (name : String) (id : Nat) (row : Row) (other : String) :
    Row.node? ((name, .node id) :: row) other =
      if other = name then some id else row.node? other := by
  rw [node?, get?_cons, node?]
  by_cases h : other = name
  · rw [if_pos h, if_pos h]
  · rw [if_neg h, if_neg h]

theorem nodes_nil (g : Graph) : Row.Nodes g [] := by
  intro name binding h
  cases h

theorem Nodes.cons {g : Graph} {row : Row} (h : row.Nodes g) (name : String) {id : Nat}
    (hid : id < g.nodeCount) : Row.Nodes g ((name, .node id) :: row) := by
  intro other binding hget
  rw [get?_cons] at hget
  split at hget
  · exact ⟨id, hid, (Option.some.inj hget).symm⟩
  · exact h other binding hget

theorem Nodes.mono {g g' : Graph} {row : Row} (h : row.Nodes g) (hg : g.Extends g') :
    row.Nodes g' := by
  intro name binding hget
  obtain ⟨id, hid, hbinding⟩ := h name binding hget
  exact ⟨id, Nat.lt_of_lt_of_le hid hg.nodeCount_le, hbinding⟩

theorem get?_of_node? {row : Row} {name : String} {id : Nat} (h : row.node? name = some id) :
    row.get? name = some (.node id) := by
  unfold node? at h
  split at h
  case h_1 k hget =>
    cases h
    exact hget
  case h_2 => cases h

theorem Nodes.lt {g : Graph} {row : Row} (h : row.Nodes g) {name : String} {id : Nat}
    (hid : row.node? name = some id) : id < g.nodeCount := by
  obtain ⟨j, hj, hbinding⟩ := h name _ (get?_of_node? hid)
  cases hbinding
  exact hj

end Row

namespace NodePattern

theorem boundNode_eq {g : Graph} {row : Row} (hrow : row.Nodes g) (p : NodePattern) :
    p.boundNode row = .ok (p.name.bind row.node?) := by
  unfold boundNode
  cases p.name with
  | none => rfl
  | some name =>
    simp only [Option.bind_some, Row.node?]
    cases hget : row.get? name with
    | none => rfl
    | some binding =>
      obtain ⟨id, _, rfl⟩ := hrow name binding hget
      rfl

end NodePattern

theorem Row.Nodes.bind {g : Graph} {row : Row} (h : row.Nodes g) (name : Option String) {id : Nat}
    (hid : id < g.nodeCount) : (row.bind name (.node id)).Nodes g := by
  cases name with
  | none => exact h
  | some name => exact h.cons name hid

end FieldGraph
