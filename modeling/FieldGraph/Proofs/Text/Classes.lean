import FieldGraph.Text.Blank
import FieldGraph.Text.Identifier

/-!
# Character classes

Blanks, digits and signs do not start a name, and a digit goes on with one.
-/
namespace FieldGraph.Text

theorem covers_below {low high n : Nat} (rest : List (Nat × Nat)) (h : n < low) :
    covers ((low, high) :: rest) n = false := by
  simp [covers, Nat.not_le.mpr h]

theorem covers_first {low high n : Nat} (rest : List (Nat × Nat)) (hl : low ≤ n) (hh : n ≤ high) :
    covers ((low, high) :: rest) n = true := by
  simp [covers, hl, hh]

def blanks : List Nat :=
  [0x9, 0xA, 0xB, 0xC, 0xD, 0x20, 0x85, 0xA0, 0x1680, 0x2000, 0x2001, 0x2002, 0x2003, 0x2004,
    0x2005, 0x2006, 0x2007, 0x2008, 0x2009, 0x200A, 0x2028, 0x2029, 0x202F, 0x205F, 0x3000]

theorem mem_blanks {c : Char} (h : isBlank c = true) : c.toNat ∈ blanks := by
  simp only [isBlank, blankRanges, covers, Bool.and_eq_true, Bool.or_eq_true, decide_eq_true_eq,
    Bool.false_eq_true, or_false] at h
  simp only [blanks, List.mem_cons, List.not_mem_nil, or_false]
  omega

theorem not_alphabetic_of_blank {c : Char} (h : isBlank c = true) : isAlphabetic c = false := by
  have hall : ∀ n ∈ blanks, covers alphabeticRanges n = false := by decide +kernel
  exact hall _ (mem_blanks h)

theorem not_blank_of_startsIdentifier {c : Char} (h : startsIdentifier c = true) :
    isBlank c = false := by
  rw [Bool.eq_false_iff]
  intro hb
  have hunderscore : c ≠ '_' := by
    rintro rfl
    exact absurd hb (by decide)
  simp [startsIdentifier, not_alphabetic_of_blank hb, hunderscore] at h

theorem isDigit_iff {c : Char} : c.isDigit = true ↔ 0x30 ≤ c.toNat ∧ c.toNat ≤ 0x39 := by
  simp only [Char.isDigit, Bool.and_eq_true, decide_eq_true_eq, UInt32.le_iff_toNat_le, ge_iff_le]
  exact Iff.rfl

theorem not_startsIdentifier_of_isDigit {c : Char} (h : c.isDigit = true) :
    startsIdentifier c = false := by
  have hlow : isAlphabetic c = false := covers_below _ (by have := isDigit_iff.mp h; omega)
  have hunderscore : c ≠ '_' := by
    rintro rfl
    exact absurd h (by decide)
  simp [startsIdentifier, hlow, hunderscore]

theorem continuesIdentifier_of_isDigit {c : Char} (h : c.isDigit = true) :
    continuesIdentifier c = true := by
  have hnum : isNumeric c = true :=
    covers_first _ (isDigit_iff.mp h).1 (isDigit_iff.mp h).2
  simp [continuesIdentifier, hnum]

theorem continuesIdentifier_of_startsIdentifier {c : Char} (h : startsIdentifier c = true) :
    continuesIdentifier c = true := by
  simp only [startsIdentifier, Bool.or_eq_true] at h
  simp only [continuesIdentifier, Bool.or_eq_true]
  exact h.imp_left .inl

theorem not_blank_of_isDigit {c : Char} (h : c.isDigit = true) : isBlank c = false := by
  rw [Bool.eq_false_iff]
  intro hb
  have hd := isDigit_iff.mp h
  have hm := mem_blanks hb
  simp only [blanks, List.mem_cons, List.not_mem_nil, or_false] at hm
  omega

theorem blank_of_isLineBreak {c : Char} (h : isLineBreak c = true) : isBlank c = true := by
  simp only [isLineBreak, Bool.or_eq_true, beq_iff_eq] at h
  rcases h with ((rfl | rfl) | rfl) | rfl <;> decide

theorem takeWhile_append_of_end {p : Char → Bool} (cs : List Char) {rest : List Char}
    (hrest : ∀ c ∈ rest.head?, p c = false) :
    (cs ++ rest).takeWhile p = cs.takeWhile p ∧
      (cs ++ rest).dropWhile p = cs.dropWhile p ++ rest := by
  induction cs with
  | nil =>
    cases rest with
    | nil => exact ⟨rfl, rfl⟩
    | cons c rest => simp [hrest c rfl]
  | cons c cs ih =>
    by_cases hc : p c = true
    · simpa [hc] using ih
    · simp [hc]

theorem takeWhile_append_of_head {p : Char → Bool} {cs : List Char} (rest : List Char)
    (hcs : ∀ c ∈ cs, p c = true) (hrest : ∀ c ∈ rest.head?, p c = false) :
    (cs ++ rest).takeWhile p = cs ∧ (cs ++ rest).dropWhile p = rest := by
  have hnil := takeWhile_append_of_end [] hrest
  rw [List.nil_append] at hnil
  rw [List.takeWhile_append_of_pos hcs, List.dropWhile_append_of_pos hcs, hnil.1, hnil.2]
  simp

end FieldGraph.Text
