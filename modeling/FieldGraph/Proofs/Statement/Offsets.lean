import FieldGraph.Proofs.Statement.Lexing
import FieldGraph.Statement.Parser

/-!
# Byte offsets

A text has a place at each offset at which one of its characters begins, and at its end. Cutting a
text at any other offset is a miss, and so is a part that ends before it begins.
-/
namespace FieldGraph

variable {source front rest found : List Char} {n start stop : Nat}

/-- A result, an error of the text, or a miss. -/
abbrev Checked := ExceptT SyntaxError Option

def miss {α : Type} : Checked α := (none : Option _)

/-- A character begins at the offset, or the text ends there. -/
def Boundary (source : List Char) (n : Nat) : Prop :=
  ∃ front rest, source = front ++ rest ∧ byteLength front = n

def cutAt? : Nat → List Char → Option (List Char × List Char)
  | n, [] => if n = 0 then some ([], []) else none
  | n, c :: rest =>
    if n = 0 then some ([], c :: rest)
    else if c.utf8Size ≤ n then
      (cutAt? (n - c.utf8Size) rest).map fun (front, rest) => (c :: front, rest)
    else none

def from? (source : List Char) (start : Nat) : Option (List Char) :=
  (cutAt? start source).map Prod.snd

def between? (source : List Char) (start stop : Nat) : Option (List Char) :=
  if start ≤ stop then do
    let rest ← from? source start
    (cutAt? (stop - start) rest).map Prod.fst
  else none

theorem byteLength_pos {c : Char} {cs : List Char} : 0 < byteLength (c :: cs) :=
  Nat.add_pos_left c.utf8Size_pos _

theorem byteLength_snoc (front : List Char) (c : Char) :
    byteLength (front ++ [c]) = byteLength front + c.utf8Size :=
  byteLength_append front [c]

theorem byteLength_eq_zero_iff {cs : List Char} : byteLength cs = 0 ↔ cs = [] := by
  cases cs with
  | nil => simp [byteLength]
  | cons c cs => simpa using Nat.ne_of_gt byteLength_pos

/-- A text can be cut exactly at its boundaries. -/
theorem cutAt?_eq_some_iff :
    cutAt? n source = some (front, rest) ↔ source = front ++ rest ∧ byteLength front = n := by
  induction source generalizing n front rest with
  | nil =>
    rw [cutAt?, List.nil_eq, List.append_eq_nil_iff]
    by_cases hn : n = 0
    · simp only [hn, if_true, Option.some.injEq, Prod.mk.injEq, byteLength_eq_zero_iff,
        eq_comm (a := ([] : List Char))]
      tauto
    · simp only [hn, if_false, reduceCtorEq, false_iff, not_and]
      rintro ⟨rfl, _⟩ rfl
      exact hn rfl
  | cons c source ih =>
    rw [cutAt?]
    cases front with
    | nil =>
      by_cases hn : n = 0
      · simp [hn, byteLength, eq_comm]
      · have hne : ¬0 = n := fun h => hn h.symm
        simp only [hn, if_false, byteLength, hne, and_false, iff_false]
        split <;> simp
    | cons d front =>
      have hpos := c.utf8Size_pos
      by_cases hn : n = 0
      · subst hn
        simp [Nat.ne_of_gt byteLength_pos]
      · simp only [hn, if_false, List.cons_append, List.cons.injEq, byteLength]
        split
        case isTrue hc =>
          simp only [Option.map_eq_some_iff, Prod.exists, ih, Prod.mk.injEq, List.cons.injEq]
          constructor
          · rintro ⟨_, _, ⟨rfl, hlength⟩, ⟨rfl, rfl⟩, rfl⟩
            exact ⟨⟨rfl, rfl⟩, by omega⟩
          · rintro ⟨⟨rfl, rfl⟩, hlength⟩
            exact ⟨front, rest, ⟨rfl, by omega⟩, ⟨rfl, rfl⟩, rfl⟩
        case isFalse hc =>
          simp only [reduceCtorEq, false_iff]
          rintro ⟨⟨rfl, rfl⟩, hlength⟩
          omega

theorem from?_eq_some_iff :
    from? source n = some rest ↔ ∃ front, source = front ++ rest ∧ byteLength front = n := by
  simp [from?, Option.map_eq_some_iff, cutAt?_eq_some_iff]

theorem between?_eq_some_iff : between? source start stop = some found ↔
    ∃ front rest, source = front ++ (found ++ rest) ∧ byteLength front = start ∧
      start + byteLength found = stop := by
  unfold between?
  by_cases horder : start ≤ stop
  · rw [if_pos horder, Option.bind_eq_bind, Option.bind_eq_some_iff]
    simp only [from?_eq_some_iff, Option.map_eq_some_iff, Prod.exists, cutAt?_eq_some_iff]
    constructor
    · rintro ⟨_, ⟨front, rfl, hfront⟩, _, rest, ⟨rfl, hfound⟩, rfl⟩
      exact ⟨front, rest, rfl, hfront, by omega⟩
    · rintro ⟨front, rest, rfl, hfront, hfound⟩
      exact ⟨_, ⟨front, rfl, hfront⟩, found, rest, ⟨rfl, by omega⟩, rfl⟩
  · rw [if_neg horder]
    simp only [reduceCtorEq, false_iff, not_exists, not_and]
    intro _ _ _ _ hstop
    omega

namespace Parser

/-- The part of a text from byte `n` on is that of what follows its first bytes. -/
theorem dropBytes_append (a b : List Char) (n : Nat) :
    dropBytes (byteLength a + n) (a ++ b) = dropBytes n b := by
  induction a with
  | nil => simp [byteLength]
  | cons c a ih =>
    have hpos := c.utf8Size_pos
    have hne : ¬byteLength (c :: a) + n = 0 := by
      simp only [byteLength]
      omega
    have hrest : byteLength (c :: a) + n - c.utf8Size = byteLength a + n := by
      simp only [byteLength]
      omega
    rw [List.cons_append, dropBytes, if_neg hne, hrest, ih]

theorem dropBytes_zero (cs : List Char) : dropBytes 0 cs = cs := by
  cases cs <;> simp [dropBytes]

theorem takeBytes_append (a b : List Char) : takeBytes (byteLength a) (a ++ b) = a := by
  induction a with
  | nil => cases b <;> simp [takeBytes, byteLength]
  | cons c a ih =>
    rw [List.cons_append, takeBytes, if_neg (Nat.ne_of_gt byteLength_pos), byteLength,
      Nat.add_sub_cancel_left, ih]

theorem slice_append (a b : List Char) (start stop : Nat) :
    slice (a ++ b) (byteLength a + start) (byteLength a + stop) = slice b start stop := by
  rw [slice, slice, dropBytes_append, Nat.add_sub_add_left]

end Parser

theorem between?_boundaries (hstart : Boundary source start) (hstop : Boundary source stop)
    (horder : start ≤ stop) : between? source start stop =
      some (Parser.takeBytes (stop - start) (Parser.dropBytes start source)) := by
  obtain ⟨front, rest, rfl, rfl⟩ := hstart
  obtain ⟨longer, last, hsame, rfl⟩ := hstop
  -- The longer part at the front goes on where the shorter one ends.
  obtain ⟨found, rfl, rfl⟩ : ∃ found, longer = front ++ found ∧ rest = found ++ last := by
    rcases List.append_eq_append_iff.mp hsame with h | ⟨extra, rfl, rfl⟩
    · exact h
    · rw [byteLength_append] at horder
      obtain rfl : extra = [] := byteLength_eq_zero_iff.mp (by omega)
      exact ⟨[], by simp, rfl⟩
  have hfound : between? (front ++ (found ++ last)) (byteLength front)
      (byteLength (front ++ found)) = some found :=
    between?_eq_some_iff.mpr ⟨front, last, rfl, rfl, (byteLength_append front found).symm⟩
  have hdrop := Parser.dropBytes_append front (found ++ last) 0
  rw [Nat.add_zero] at hdrop
  rw [hfound, hdrop, byteLength_append, Nat.add_sub_cancel_left, Parser.dropBytes_zero,
    Parser.takeBytes_append]

theorem Boundary.le (h : Boundary source n) : n ≤ byteLength source := by
  obtain ⟨front, rest, rfl, rfl⟩ := h
  rw [byteLength_append]
  exact Nat.le_add_right _ _

theorem boundary_append (front rest : List Char) : Boundary (front ++ rest) (byteLength front) :=
  ⟨front, rest, rfl, rfl⟩

theorem boundary_byteLength (source : List Char) : Boundary source (byteLength source) :=
  ⟨source, [], (List.append_nil source).symm, rfl⟩

theorem byteLength_toList (text : String) : byteLength text.toList = text.utf8ByteSize := by
  have hofList : ∀ cs, byteLength cs = (String.ofList cs).utf8ByteSize := by
    intro cs
    induction cs with
    | nil => rfl
    | cons c cs ih =>
      have hcons : String.ofList (c :: cs) = String.singleton c ++ String.ofList cs := by
        rw [String.singleton_eq_ofList, ← String.ofList_append]
        rfl
      rw [byteLength, ih, hcons, String.utf8ByteSize_append, String.utf8ByteSize_singleton]
  rw [hofList, String.ofList_toList]

theorem from?_append (front rest : List Char) :
    from? (front ++ rest) (byteLength front) = some rest :=
  from?_eq_some_iff.mpr ⟨front, rfl, rfl⟩

theorem boundary_toList_iff {text : String} :
    Boundary text.toList n ↔ String.Pos.Raw.IsValid text ⟨n⟩ := by
  rw [String.Pos.Raw.isValid_iff_exists_append]
  constructor
  · rintro ⟨front, rest, htext, rfl⟩
    refine ⟨String.ofList front, String.ofList rest, ?_, ?_⟩
    · rw [← String.ofList_append, ← htext, String.ofList_toList]
    · rw [String.rawEndPos, ← byteLength_toList, String.toList_ofList]
  · rintro ⟨s, t, rfl, hn⟩
    refine ⟨s.toList, t.toList, String.toList_append, ?_⟩
    rw [byteLength_toList]
    exact (congrArg String.Pos.Raw.byteIdx hn).symm

end FieldGraph
