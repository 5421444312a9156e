import FieldGraph.Proofs.Statement.Offsets

/-!
# Positions of tokens

Tokens begin at boundaries of the text, each after the one before it, and a fault is reported at the
boundary at which its token begins.
-/
namespace FieldGraph

structure Lexeme.Within (source : List Char) (start : Nat) (l : Lexeme) : Prop where
  start_le : start ≤ l.position
  lt_end : l.position < byteLength source
  boundary : Boundary source l.position

theorem Lexeme.Within.mono {source : List Char} {start later : Nat} {l : Lexeme}
    (h : l.Within source later) (hle : start ≤ later) : l.Within source start :=
  ⟨Nat.le_trans hle h.start_le, h.lt_end, h.boundary⟩

namespace Lexer

/-- The lexer passes over a character, fails at it, or finds a token that begins there. What comes
after it is read from the next boundary. -/
theorem lexFrom_cons (front : List Char) (skip : Nat) (c : Char) (cs : List Char) :
    (∃ left, lexFrom (byteLength front) skip (c :: cs) =
      lexFrom (byteLength (front ++ [c])) left cs) ∨
    (∃ fault, lexFrom (byteLength front) skip (c :: cs) = .error ⟨fault, byteLength front⟩) ∨
    ∃ t left, lexFrom (byteLength front) skip (c :: cs) =
      (lexFrom (byteLength (front ++ [c])) left cs).map (⟨t, byteLength front⟩ :: ·) := by
  rw [byteLength_snoc]
  cases skip with
  | succ skip => exact .inl ⟨skip, rfl⟩
  | zero =>
    rw [lexFrom]
    split
    case isTrue => exact .inl ⟨0, rfl⟩
    case isFalse =>
      split
      case h_1 fault _ => exact .inr (.inl ⟨fault, rfl⟩)
      case h_2 t n _ => exact .inr (.inr ⟨t, n - 1, rfl⟩)

/-- Tokens begin at boundaries, each after the one before it. -/
theorem lexFrom_positions (front : List Char) {cs : List Char} {skip : Nat} {lexemes : List Lexeme}
    (h : lexFrom (byteLength front) skip cs = .ok lexemes) :
    (∀ l ∈ lexemes, l.Within (front ++ cs) (byteLength front)) ∧
      lexemes.Pairwise fun l m => l.position < m.position := by
  induction cs generalizing front skip lexemes with
  | nil =>
    cases h
    exact ⟨by simp, .nil⟩
  | cons c cs ih =>
    have hstart : byteLength front < byteLength (front ++ [c]) := by
      rw [byteLength_snoc]
      exact Nat.lt_add_of_pos_right c.utf8Size_pos
    rw [List.append_cons]
    rcases lexFrom_cons front skip c cs with ⟨left, hpass⟩ | ⟨fault, hfault⟩ | ⟨t, left, htoken⟩
    · rw [hpass] at h
      obtain ⟨hwithin, hincreasing⟩ := ih _ h
      exact ⟨fun l hl => (hwithin l hl).mono (Nat.le_of_lt hstart), hincreasing⟩
    · rw [hfault] at h
      cases h
    · rw [htoken] at h
      cases hothers : lexFrom (byteLength (front ++ [c])) left cs with
      | error e =>
        rw [hothers] at h
        cases h
      | ok others =>
        rw [hothers] at h
        cases h
        obtain ⟨hwithin, hincreasing⟩ := ih _ hothers
        have hinside : byteLength front < byteLength (front ++ [c] ++ cs) := by
          rw [byteLength_append (front ++ [c])]
          exact Nat.lt_add_right _ hstart
        have hboundary : Boundary (front ++ [c] ++ cs) (byteLength front) := by
          rw [List.append_assoc]
          exact boundary_append _ _
        constructor
        · refine List.forall_mem_cons.mpr ⟨⟨Nat.le_refl _, hinside, hboundary⟩, ?_⟩
          exact fun l hl => (hwithin l hl).mono (Nat.le_of_lt hstart)
        · refine List.pairwise_cons.mpr ⟨fun l hl => ?_, hincreasing⟩
          exact Nat.lt_of_lt_of_le hstart (hwithin l hl).start_le

/-- A fault is reported at the boundary where its token begins. -/
theorem lexFrom_error (front : List Char) {cs : List Char} {skip : Nat} {e : SyntaxError}
    (h : lexFrom (byteLength front) skip cs = .error e) : Boundary (front ++ cs) e.position := by
  induction cs generalizing front skip with
  | nil => cases h
  | cons c cs ih =>
    rw [List.append_cons]
    rcases lexFrom_cons front skip c cs with ⟨left, hpass⟩ | ⟨fault, hfault⟩ | ⟨t, left, htoken⟩
    · rw [hpass] at h
      exact ih _ h
    · rw [hfault] at h
      cases h
      rw [List.append_assoc]
      exact boundary_append _ _
    · rw [htoken] at h
      cases hothers : lexFrom (byteLength (front ++ [c])) left cs with
      | error f =>
        rw [hothers] at h
        cases h
        exact ih _ hothers
      | ok others =>
        rw [hothers] at h
        cases h

end Lexer

/-- Tokens begin at boundaries of the text, each after the one before it. -/
structure Placed (source : List Char) (lexemes : List Lexeme) : Prop where
  within : ∀ l ∈ lexemes, l.Within source 0
  increasing : lexemes.Pairwise fun l m => l.position < m.position

theorem Placed.of_lex {source : List Char} {lexemes : List Lexeme}
    (h : lex source = .ok lexemes) : Placed source lexemes := by
  obtain ⟨hwithin, hincreasing⟩ := Lexer.lexFrom_positions [] h
  exact ⟨hwithin, hincreasing⟩

end FieldGraph
