import FieldGraph.Proofs.Number.Literal
import FieldGraph.Proofs.Text.Classes
import FieldGraph.Statement.Lexer
import FieldGraph.Value.Text

/-!
# Lexing written texts

What the lexer makes of the words, names, strings and numbers that statements are written with,
in front of any text that does not go on with them.
-/
namespace FieldGraph

theorem byteLength_append (a b : List Char) :
    byteLength (a ++ b) = byteLength a + byteLength b := by
  induction a with
  | nil => simp [byteLength]
  | cons c a ih => simp [byteLength, ih, Nat.add_assoc]

/-- The lexer cuts `text` into `tokens` when `rest` follows it, and goes on with `rest`. -/
def Lexes (text rest : List Char) (tokens : List Token) : Prop :=
  ∀ position, ∃ lexemes, lexemes.map Lexeme.token = tokens ∧
    Lexer.lexFrom position 0 (text ++ rest) =
      (Lexer.lexFrom (position + byteLength text) 0 rest).map (lexemes ++ ·)

def Unlexable (text : List Char) : Prop :=
  ∀ position, ∃ e, Lexer.lexFrom position 0 text = .error e

/-- The text cannot go on with a name that ends before it. -/
def EndsWord (rest : List Char) : Prop := ∀ c ∈ rest.head?, Text.continuesIdentifier c = false

/-- The text cannot go on with a name, or with a number that ends before it. -/
def EndsLiteral (rest : List Char) : Prop :=
  ∀ c ∈ rest.head?, Text.continuesIdentifier c = false ∧ c ≠ '.'

theorem EndsLiteral.endsWord {rest : List Char} (h : EndsLiteral rest) : EndsWord rest :=
  fun c hc => (h c hc).1

theorem endsWord_cons {c : Char} (rest : List Char) (h : Text.continuesIdentifier c = false) :
    EndsWord (c :: rest) := by
  simpa [EndsWord] using h

theorem endsLiteral_nil : EndsLiteral [] := by
  simp [EndsLiteral]

theorem endsLiteral_cons {c : Char} (rest : List Char)
    (h : Text.continuesIdentifier c = false ∧ c ≠ '.') : EndsLiteral (c :: rest) := by
  simpa [EndsLiteral] using h

namespace Lexes

theorem nil (rest : List Char) : Lexes [] rest [] := by
  intro position
  refine ⟨[], rfl, ?_⟩
  cases h : Lexer.lexFrom position 0 rest <;> simp [byteLength, h, Except.map]

theorem append {a b rest : List Char} {ts us : List Token} (ha : Lexes a (b ++ rest) ts)
    (hb : Lexes b rest us) : Lexes (a ++ b) rest (ts ++ us) := by
  intro position
  obtain ⟨la, hla, ha⟩ := ha position
  obtain ⟨lb, hlb, hb⟩ := hb (position + byteLength a)
  refine ⟨la ++ lb, by simp [hla, hlb], ?_⟩
  rw [List.append_assoc, ha, hb, byteLength_append, ← Nat.add_assoc]
  cases Lexer.lexFrom (position + byteLength a + byteLength b) 0 rest <;> simp [Except.map]

theorem cons {c : Char} {b rest : List Char} {ts us : List Token} (ha : Lexes [c] (b ++ rest) ts)
    (hb : Lexes b rest us) : Lexes (c :: b) rest (ts ++ us) :=
  append (a := [c]) ha hb

theorem ofText {text : String} (cs : List Char) (htext : text.toList = cs) {rest : List Char}
    {ts : List Token} (h : Lexes cs rest ts) : Lexes text.toList rest ts := htext ▸ h

theorem blank {c : Char} (rest : List Char) (h : Text.isBlank c = true) : Lexes [c] rest [] := by
  intro position
  refine ⟨[], rfl, ?_⟩
  cases hl : Lexer.lexFrom (position + byteLength [c]) 0 rest <;>
    simp_all [Lexer.lexFrom, byteLength, Except.map]

theorem lex_eq {text : List Char} {ts : List Token} (h : Lexes text [] ts) :
    ∃ lexemes, lexemes.map Lexeme.token = ts ∧ lex text = .ok lexemes := by
  obtain ⟨ls, hls, h⟩ := h 0
  refine ⟨ls, hls, ?_⟩
  simpa [lex, Lexer.lexFrom, Except.map] using h

theorem unlexable {a rest : List Char} {ts : List Token} (ha : Lexes a rest ts)
    (h : Unlexable rest) : Unlexable (a ++ rest) := by
  intro position
  obtain ⟨ls, _, ha⟩ := ha position
  obtain ⟨e, he⟩ := h (position + byteLength a)
  exact ⟨e, by rw [ha, he]; rfl⟩

end Lexes

namespace Lexer

/-- Characters that are passed over only move the lexer on. -/
theorem lexFrom_drop (position skip : Nat) (cs : List Char) :
    lexFrom position skip cs =
      lexFrom (position + byteLength (cs.take skip)) 0 (cs.drop skip) := by
  induction cs generalizing position skip with
  | nil => simp [lexFrom]
  | cons c cs ih =>
    cases skip with
    | zero => rfl
    | succ skip =>
      rw [lexFrom, ih, List.take_succ_cons, List.drop_succ_cons, byteLength, Nat.add_assoc]

theorem lexFrom_skip (position : Nat) (read rest : List Char) :
    lexFrom position read.length (read ++ rest) =
      lexFrom (position + byteLength read) 0 rest := by
  rw [lexFrom_drop, List.take_left, List.drop_left]

end Lexer

/-- A token that is read on its own is the first that the lexer finds. -/
theorem Lexes.token {c : Char} {cs rest : List Char} {t : Token} (hb : Text.isBlank c = false)
    (ht : Lexer.token c (cs ++ rest) = .ok (t, (c :: cs).length)) : Lexes (c :: cs) rest [t] := by
  intro position
  refine ⟨[⟨t, position⟩], rfl, ?_⟩
  have hskip := Lexer.lexFrom_skip (position + c.utf8Size) cs rest
  simp only [List.cons_append, Lexer.lexFrom, hb, Bool.false_eq_true, if_false, ht,
    List.length_cons, Nat.add_sub_cancel, hskip, byteLength, Nat.add_assoc]
  cases Lexer.lexFrom (position + (c.utf8Size + byteLength cs)) 0 rest <;> rfl

theorem Unlexable.token {c : Char} {rest : List Char} {fault : SyntaxFault}
    (hb : Text.isBlank c = false) (ht : Lexer.token c rest = .error fault) :
    Unlexable (c :: rest) := by
  intro position
  exact ⟨⟨fault, position⟩, by simp [Lexer.lexFrom, hb, ht]⟩

end FieldGraph
