import FieldGraph.Proofs.Field.Lookup

/-!
# Fields of missing nodes

A number that no node has is no failure: the field of it is null, no reference or an empty list.
Numbers beyond 63 bits are the exception. No statement can name them, so nothing is looked up.
-/
namespace FieldGraph

theorem Graph.nodeCount_le_of_missing {g : Graph} {id : Nat} (h : g.node? id = none) :
    g.nodeCount ≤ id := by
  apply Nat.le_of_not_lt
  intro hlt
  obtain ⟨n, hn⟩ := Graph.exists_node? hlt
  rw [h] at hn
  cases hn

theorem memoryStore_execute_unreadable {text : String} {e : SyntaxError}
    (h : Script.parse text = .error e) (g : Graph) :
    memoryStore.execute text g = (.error (.statement e), g) := by
  have htext : g.runText text = .error (.statement e) := by
    rw [Graph.runText, h]
  simp only [Store.execute, memoryStore, htext]

namespace Resolver

variable {r : Resolver} {g : Graph} {id : Nat} {found : Resolved}

def nothing? : Resolver → Option Resolved
  | .property _ => some (.scalar .null)
  | .relation .single _ _ _ => some (.reference none)
  | .relation .many _ _ _ => some (.references [])
  | _ => none

theorem resolve_missing (hplain : r.Plain) (hr : r.nothing? = some found)
    (hmissing : g.node? id = none) (hid : id < 0x8000000000000000) (typeName : Option String)
    (arguments : Arguments) :
    r.resolve memoryStore (some ⟨id, typeName⟩) arguments g = (.ok found, g) := by
  have hsize : g.nodeCount ≤ 0x8000000000000000 :=
    Nat.le_trans (Graph.nodeCount_le_of_missing hmissing) (Nat.le_of_lt hid)
  cases r with
  | property field =>
    cases hr
    rw [resolve_property hplain hsize hid, hmissing]
    rfl
  | relation multiplicity edgeType direction targetLabel =>
    rw [resolve_relation hplain hsize hid, Graph.related_of_missing hmissing]
    cases multiplicity with
    | single =>
      cases hr
      rfl
    | many =>
      cases hr
      rfl
  | identity => cases hr
  | search => cases hr
  | collection label => cases hr

theorem resolve_of_unreadable {source : Option NodeRef} {arguments : Arguments} {text : String}
    {e : SyntaxError} (hstatement : r.statement source arguments = .ok (some text))
    (h : Script.parse text = .error e) (g : Graph) :
    r.resolve memoryStore source arguments g = (.error (.statement e), g) := by
  rw [resolve, hstatement]
  exact storeM_bind_error (memoryStore_execute_unreadable h g)

/-- No statement can be about a node whose number 63 bits do not hold. -/
theorem resolve_unreadable (hplain : r.Plain) (hr : r.nothing? = some found)
    (hid : 0x8000000000000000 ≤ id) (typeName : Option String) (arguments : Arguments)
    (g : Graph) :
    ∃ e, r.resolve memoryStore (some ⟨id, typeName⟩) arguments g = (.error (.statement e), g) := by
  cases r with
  | property field =>
    obtain ⟨text, hstatement⟩ : ∃ text,
        statement (.property field) (some ⟨id, typeName⟩) arguments = .ok (some text) := ⟨_, rfl⟩
    obtain ⟨_, heq, _, hfail⟩ := parse_property hplain hstatement
    cases heq
    obtain ⟨e, he⟩ := hfail hid
    exact ⟨e, resolve_of_unreadable hstatement he g⟩
  | relation multiplicity edgeType direction targetLabel =>
    obtain ⟨text, hstatement⟩ : ∃ text, statement
        (.relation multiplicity edgeType direction targetLabel) (some ⟨id, typeName⟩) arguments =
          .ok (some text) := ⟨_, rfl⟩
    obtain ⟨_, heq, _, hfail⟩ := parse_relation hplain hstatement
    cases heq
    obtain ⟨e, he⟩ := hfail hid
    exact ⟨e, resolve_of_unreadable hstatement he g⟩
  | identity => cases hr
  | search => cases hr
  | collection label => cases hr

/-- Of a missing node, a property is null, a single relation has no reference and a relation to many
is empty, as long as 63 bits hold the number. With a greater number the statement is rejected. -/
theorem nothing_found_of_missing (hplain : r.Plain) (hr : r.nothing? = some found)
    (hmissing : g.node? id = none) (typeName : Option String) (arguments : Arguments) :
    (id < 0x8000000000000000 →
      r.resolve memoryStore (some ⟨id, typeName⟩) arguments g = (.ok found, g)) ∧
      (0x8000000000000000 ≤ id → ∃ e,
        r.resolve memoryStore (some ⟨id, typeName⟩) arguments g = (.error (.statement e), g)) := by
  constructor
  · intro hid
    exact resolve_missing hplain hr hmissing hid typeName arguments
  · intro hid
    exact resolve_unreadable hplain hr hid typeName arguments g

/-- The first number after those of 63 bits, and the last one before. -/
theorem missing_node_at_edge :
    resolve (.relation .many "knows" .both "Post") memoryStore
        (some ⟨0x7FFFFFFFFFFFFFFF, none⟩) [] loopGraph = (.ok (.references []), loopGraph) ∧
      ∃ e, resolve (.relation .many "knows" .both "Post") memoryStore
        (some ⟨0x8000000000000000, none⟩) [] loopGraph = (.error (.statement e), loopGraph) := by
  have hplain : (Resolver.relation .many "knows" .both "Post").Plain := by decide
  constructor
  · exact (nothing_found_of_missing hplain rfl rfl none []).1 (by decide)
  · exact (nothing_found_of_missing hplain rfl rfl none []).2 (by decide)

/-- The number is refused before anything is looked up, so null is not what comes back. -/
theorem missing_node_unreadable :
    isPlainIdentifier "title" = true ∧ Graph.empty.node? 0x8000000000000000 = none ∧
      resolve (.property "title") memoryStore (some ⟨0x8000000000000000, none⟩) [] .empty =
        (.error (.statement ⟨.integerOutOfRange "9223372036854775808", 22⟩), .empty) := by
  exact ⟨by decide, rfl, rfl⟩

end Resolver

end FieldGraph
