import FieldGraph.Document.Compile

/-!
# Going on with a batch

What a part of a document adds to a batch does not depend on the statements that the batch holds.
It is what the part adds to an empty batch, with all numbers moved up by those already taken.
-/
namespace FieldGraph

namespace Mutation

def shift (k : Nat) : Mutation → Mutation
  | .mergeNode id label properties => .mergeNode (k + id) label properties
  | .mergeEdge child edgeType parent => .mergeEdge (k + child) edgeType (k + parent)
  | .raw text => .raw text

end Mutation

namespace Batch

/-- A batch followed by a second one, whose numbers go on from those of the first. -/
def append (b c : Batch) : Batch :=
  ⟨b.nextId + c.nextId, b.mutations ++ c.mutations.map (Mutation.shift b.nextId)⟩

variable (b c : Batch)

@[simp] theorem append_empty : b.append .empty = b := by
  simp [append, empty]

@[simp] theorem nextId_append : (b.append c).nextId = b.nextId + c.nextId := rfl

theorem append_eq_iff {d : Batch} : b.append c = d ↔
    d.nextId = b.nextId + c.nextId ∧ d.mutations.toList =
      b.mutations.toList ++ c.mutations.toList.map (Mutation.shift b.nextId) := by
  obtain ⟨next, mutations⟩ := d
  rw [append, mk.injEq, ← Array.toList_inj]
  simp [eq_comm]

theorem append_allocate : (b.append c).allocate = b.append c.allocate := rfl

theorem append_push (m : Mutation) :
    b.append (c.push m) = (b.append c).push (m.shift b.nextId) := by
  simp [append, push]

end Batch

variable (rootLabel : String) (b : Batch)

theorem pushObject_shift (parent : Option Nat) (relation : Option String) (id : Nat)
    (properties : List (String × Value)) (c : Batch) :
    pushObject rootLabel (parent.map (b.nextId + ·)) relation (b.nextId + id) properties
      (b.append c) = b.append <$> pushObject rootLabel parent relation id properties c := by
  unfold pushObject
  by_cases hnone : properties.isEmpty = true
  · rw [if_pos hnone, if_pos hnone]
    rfl
  · rw [if_neg hnone, if_neg hnone, map_bind]
    apply bind_congr
    intro label
    have hnode : (b.append c).push (.mergeNode (b.nextId + id) label properties) =
        b.append (c.push (.mergeNode id label properties)) :=
      (b.append_push c (.mergeNode id label properties)).symm
    rw [hnode]
    cases parent with
    | none => rfl
    | some parent =>
      cases relation with
      | none => rfl
      | some relation =>
        show (checkedName _ _ >>= _) = _ <$> (checkedName _ _ >>= _)
        rw [map_bind]
        apply bind_congr
        intro edgeType
        exact congrArg pure (b.append_push _ (.mergeEdge id edgeType parent)).symm

mutual

theorem compileInto_shift (json : Json) (parent : Option Nat) (relation : Option String)
    (c : Batch) :
    compileInto rootLabel (parent.map (b.nextId + ·)) relation json (b.append c) =
      b.append <$> compileInto rootLabel parent relation json c := by
  match json with
  | .object fields =>
    rw [compileInto, compileInto, map_bind]
    apply bind_congr
    intro properties
    rw [Batch.append_allocate, Batch.nextId_append, pushObject_shift, map_bind, bind_map_left]
    apply bind_congr
    intro d
    exact compileFields_shift fields c.nextId d
  | .array items =>
    rw [compileInto, compileInto]
    exact compileItems_shift items parent relation c
  | .null | .bool _ | .integer _ _ | .float _ | .string _ => rfl

theorem compileItems_shift (items : List Json) (parent : Option Nat) (relation : Option String)
    (c : Batch) :
    compileItems rootLabel (parent.map (b.nextId + ·)) relation items (b.append c) =
      b.append <$> compileItems rootLabel parent relation items c := by
  match items with
  | [] => rfl
  | item :: rest =>
    rw [compileItems, compileItems, map_bind, compileInto_shift item parent relation c,
      bind_map_left]
    apply bind_congr
    intro d
    exact compileItems_shift rest parent relation d

theorem compileFields_shift (fields : List (String × Json)) (id : Nat) (c : Batch) :
    compileFields rootLabel (b.nextId + id) fields (b.append c) =
      b.append <$> compileFields rootLabel id fields c := by
  match fields with
  | [] => rfl
  | (key, value) :: rest =>
    have hvalue := compileInto_shift value (some id) (some key) c
    rw [Option.map_some] at hvalue
    rw [compileFields, compileFields, map_bind, hvalue, bind_map_left]
    apply bind_congr
    intro d
    exact compileFields_shift rest id d

end

/-- A part of a document fails in every batch as it does in an empty one. What it adds is the same
up to the numbers, which go on from those of the batch. -/
theorem compileInto_continues (parent : Option Nat) (relation : Option String) (fragment : Json) :
    (∀ fault, compileInto rootLabel (parent.map (b.nextId + ·)) relation fragment b =
        .error fault ↔
      compileInto rootLabel parent relation fragment .empty = .error fault) ∧
    ∀ c, compileInto rootLabel (parent.map (b.nextId + ·)) relation fragment b = .ok c ↔
      ∃ fresh, compileInto rootLabel parent relation fragment .empty = .ok fresh ∧
        c.nextId = b.nextId + fresh.nextId ∧
        c.mutations.toList =
          b.mutations.toList ++ fresh.mutations.toList.map (Mutation.shift b.nextId) := by
  have hrun := compileInto_shift rootLabel b fragment parent relation .empty
  rw [Batch.append_empty] at hrun
  rw [hrun]
  cases compileInto rootLabel parent relation fragment .empty with
  | error fault => simp [Functor.map, Except.map]
  | ok fresh => simp [Functor.map, Except.map, Batch.append_eq_iff]

/-- A comment that goes under the third node of a batch with three nodes and a line of its own. -/
example : ∃ c, compileInto defaultLabel (some 2) (some "comments")
    (.object [("text", .string "b"), ("author", .object [("name", .string "c")])])
      ⟨3, #[.raw "MATCH (n) RETURN count(n)"]⟩ = .ok c ∧ c.nextId = 5 ∧
    c.mutations.toList = [.raw "MATCH (n) RETURN count(n)",
      .mergeNode 3 "Comment" [("text", .string "b")], .mergeEdge 3 "comment" 2,
      .mergeNode 4 "Author" [("name", .string "c")], .mergeEdge 4 "author" 3] :=
  ⟨_, rfl, rfl, rfl⟩

end FieldGraph
