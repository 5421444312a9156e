import FieldGraph.Statement.Parser

/-!
# Reading tokens

When a parser reads a row of tokens as a result, whatever the tokens after them are. Parsers look
at tokens only, except for column names, so positions play no part.
-/
namespace FieldGraph

namespace Cursor

def tokens (c : Cursor) : List Token := c.lexemes.map Lexeme.token

def skip (c : Cursor) (n : Nat) : Cursor := { c with lexemes := c.lexemes.drop n }

theorem tokens_skip (c : Cursor) (n : Nat) : (c.skip n).tokens = c.tokens.drop n := by
  simp [tokens, skip]

theorem skip_zero (c : Cursor) : c.skip 0 = c := by
  simp [skip]

theorem skip_skip (c : Cursor) (m n : Nat) : (c.skip m).skip n = c.skip (m + n) := by
  simp [skip]

theorem next?_eq_head? (c : Cursor) : c.next? = c.tokens.head? := by
  simp [next?, tokens]

theorem advance_eq_skip (c : Cursor) : c.advance = c.skip 1 := by
  simp [advance, skip]

end Cursor

/-- The parser reads the tokens as `a` and stops in front of `rest`. -/
def Reads {α : Type} (p : Parser α) (ts rest : List Token) (a : α) : Prop :=
  ∀ c : Cursor, c.tokens = ts ++ rest → p c = .ok (a, c.skip ts.length)

namespace Reads

variable {α β : Type} {p : Parser α} {ts us rest : List Token} {a : α} {b : β}

theorem pure (a : α) (rest : List Token) : Reads (pure a : Parser α) [] rest a := by
  intro c _
  rw [List.length_nil, Cursor.skip_zero]
  rfl

theorem bind {f : α → Parser β} (us : List Token) (hp : Reads p ts (us ++ rest) a)
    (hf : Reads (f a) us rest b) : Reads (p >>= f) (ts ++ us) rest b := by
  intro c hc
  rw [List.append_assoc] at hc
  have hskip : (c.skip ts.length).tokens = us ++ rest := by
    rw [Cursor.tokens_skip, hc, List.drop_left]
  show (p c >>= fun s => f s.1 s.2) = _
  rw [hp c hc, List.length_append, ← Cursor.skip_skip]
  exact hf _ hskip

theorem pass {f : α → Parser β} (hp : Reads p [] (us ++ rest) a) (hf : Reads (f a) us rest b) :
    Reads (p >>= f) us rest b :=
  bind us hp hf

theorem last {f : α → Parser β} (hp : Reads p ts rest a) (hf : Reads (f a) [] rest b) :
    Reads (p >>= f) ts rest b := by
  have hall := bind [] hp hf
  rwa [List.append_nil] at hall

theorem peek {f : Option Token → Parser β} (hf : Reads (f (us ++ rest).head?) us rest b) :
    Reads (Parser.peek >>= f) us rest b := by
  intro c hc
  rw [← hf c hc, ← hc, ← Cursor.next?_eq_head?]
  rfl

theorem remaining {f : Nat → Parser β} (hf : Reads (f (us ++ rest).length) us rest b) :
    Reads (Parser.remaining >>= f) us rest b := by
  intro c hc
  have hlen : c.lexemes.length = (us ++ rest).length := by
    rw [← hc, Cursor.tokens, List.length_map]
  rw [← hf c hc, ← hlen]
  rfl

theorem position {f : Nat → Parser β} (hf : ∀ n, Reads (f n) us rest b) :
    Reads (Parser.position >>= f) us rest b := by
  intro c hc
  rw [← hf c.position c hc]
  rfl

theorem advance (t : Token) (rest : List Token) : Reads Parser.advance [t] rest () := by
  intro c _
  rw [List.length_singleton, ← Cursor.advance_eq_skip]
  rfl

theorem accept (t : Token) (rest : List Token) : Reads (Parser.accept t) [t] rest true := by
  intro c hc
  rw [Parser.accept, if_pos (by rw [Cursor.next?_eq_head?, hc]; rfl), Cursor.advance_eq_skip]
  rfl

theorem accept_other {t : Token} (h : rest.head? ≠ some t) :
    Reads (Parser.accept t) [] rest false := by
  intro c hc
  rw [Parser.accept, if_neg (by rw [Cursor.next?_eq_head?, hc]; exact h), List.length_nil,
    Cursor.skip_zero]

theorem expect (t : Token) (fault : SyntaxFault) (rest : List Token) :
    Reads (Parser.expect t fault) [t] rest () :=
  last (accept t rest) (pure () rest)

theorem identifier? (name : String) (rest : List Token) :
    Reads Parser.identifier? [.identifier name] rest (some name) := by
  intro c hc
  have hnext : c.next? = some (.identifier name) := by
    rw [Cursor.next?_eq_head?, hc]
    rfl
  rw [Parser.identifier?, hnext, Cursor.advance_eq_skip]
  rfl

theorem identifier?_other (h : ∀ name, rest.head? ≠ some (.identifier name)) :
    Reads Parser.identifier? [] rest none := by
  intro c hc
  have hnext : c.next? = rest.head? := by rw [Cursor.next?_eq_head?, hc, List.nil_append]
  rw [List.length_nil, Cursor.skip_zero, Parser.identifier?, hnext]
  split
  case h_1 name heq => exact absurd heq (h name)
  case h_2 => rfl

theorem identifier (name : String) (fault : SyntaxFault) (rest : List Token) :
    Reads (Parser.identifier fault) [.identifier name] rest name :=
  last (identifier? name rest) (pure name rest)

theorem loop {sep : Token} {q : Nat → Parser (List α)} {parts : List (List Token × α)}
    {limit : Nat} (hzero : q 0 = do return [← p])
    (hsucc : ∀ n, q (n + 1) = do
      let first ← p
      if ← Parser.accept sep then
        let others ← q n
        return first :: others
      else
        return [first])
    (hne : parts ≠ []) (hlimit : parts.length ≤ limit + 1)
    (hparts : ∀ part ∈ parts, ∀ rest, Reads p part.1 rest part.2)
    (hrest : rest.head? ≠ some sep) :
    Reads (q limit) ([sep].intercalate (parts.map Prod.fst)) rest (parts.map Prod.snd) := by
  induction parts generalizing limit with
  | nil => exact absurd rfl hne
  | cons part parts ih =>
    have hfirst := hparts part List.mem_cons_self
    cases parts with
    | nil =>
      rw [List.map_singleton, List.map_singleton, List.intercalate_singleton]
      cases limit with
      | zero =>
        rw [hzero]
        exact last (hfirst _) (pure _ _)
      | succ limit =>
        rw [hsucc]
        exact last (hfirst _) (last (accept_other hrest) (pure _ _))
    | cons other parts =>
      obtain ⟨limit, rfl⟩ : ∃ k, limit = k + 1 := by
        simp only [List.length_cons] at hlimit
        exact ⟨limit - 1, by omega⟩
      have hcount : (other :: parts).length ≤ limit + 1 := by
        simp only [List.length_cons] at hlimit ⊢
        omega
      have htail := ih (List.cons_ne_nil other parts) hcount
        fun part hpart => hparts part (List.mem_cons_of_mem _ hpart)
      rw [List.map_cons, List.map_cons, List.intercalate_cons_cons, List.append_assoc, hsucc]
      exact bind _ (hfirst _) (bind _ (accept sep _) (last htail (pure _ _)))

theorem separated {parts : List (List Token × α)} {limit : Nat} (hne : parts ≠ [])
    (hlimit : parts.length ≤ limit + 1)
    (hparts : ∀ part ∈ parts, ∀ rest, Reads p part.1 rest part.2)
    (hrest : rest.head? ≠ some .comma) :
    Reads (Parser.separated p limit) ([Token.comma].intercalate (parts.map Prod.fst)) rest
      (parts.map Prod.snd) :=
  loop rfl (fun _ => rfl) hne hlimit hparts hrest

theorem run {ls ms : List Lexeme}
    (h : Reads p (ls.map Lexeme.token) (ms.map Lexeme.token) a) (source : List Char) :
    p ⟨source, ls ++ ms⟩ = .ok (a, ⟨source, ms⟩) := by
  rw [h ⟨source, ls ++ ms⟩ List.map_append, Cursor.skip, List.length_map, List.drop_left]

end Reads

namespace Parser

variable {α β : Type} {c d : Cursor}

theorem bind_ok {p : Parser α} {f : α → Parser β} {a : α} (h : p c = .ok (a, d)) :
    (p >>= f) c = f a d := by
  show (p c >>= fun s => f s.1 s.2) = _
  rw [h]
  rfl

theorem peek_ok (c : Cursor) : peek c = .ok (c.next?, c) := rfl

theorem accept_next {t : Token} {l : Lexeme} {ls : List Lexeme} (source : List Char)
    (h : l.token = t) : accept t ⟨source, l :: ls⟩ = .ok (true, ⟨source, ls⟩) := by
  rw [accept, if_pos (by simp [Cursor.next?, h])]
  rfl

theorem accept_other {t : Token} {ls : List Lexeme} (source : List Char)
    (h : ∀ l ∈ ls.head?, l.token ≠ t) : accept t ⟨source, ls⟩ = .ok (false, ⟨source, ls⟩) := by
  rw [accept, if_neg (by simpa [Cursor.next?] using h)]

theorem clauses_cons {limit : Nat} {e : Cursor} {k : Keyword} {first : Clause} {others : Query}
    (hnext : c.next? = some (.keyword k)) (hfirst : clause c = .ok (first, d))
    (hothers : clauses limit d = .ok (others, e)) :
    clauses (limit + 1) c = .ok (first :: others, e) := by
  rw [clauses, bind_ok (peek_ok c), hnext]
  dsimp only
  rw [bind_ok hfirst, bind_ok hothers]
  rfl

theorem clauses_end {ls : List Lexeme} {source : List Char}
    (h : ∀ l ∈ ls.head?, l.token = .semicolon) (limit : Nat) :
    clauses limit ⟨source, ls⟩ = .ok ([], ⟨source, ls⟩) := by
  cases limit with
  | zero => rfl
  | succ limit =>
    rw [clauses, bind_ok (peek_ok _)]
    cases ls with
    | nil => rfl
    | cons l ls =>
      rw [Cursor.next?, List.head?_cons, Option.map_some, h l rfl]
      rfl

end Parser

theorem sublist_intercalate {α : Type} (sep : α) {xs : List α} {xss : List (List α)}
    (h : xs ∈ xss) : xs.Sublist ([sep].intercalate xss) := by
  induction xss with
  | nil => cases h
  | cons ys xss ih =>
    cases xss with
    | nil =>
      rw [List.mem_singleton] at h
      simp [h]
    | cons zs xss =>
      rw [List.intercalate_cons_cons]
      rcases List.mem_cons.mp h with rfl | h
      · exact (List.sublist_append_left _ _).trans (List.sublist_append_left _ _)
      · exact (ih h).trans (List.sublist_append_right _ _)

theorem length_le_intercalate {α : Type} (sep : α) {xs : List α} {xss : List (List α)}
    (h : xs ∈ xss) : xs.length ≤ ([sep].intercalate xss).length :=
  (sublist_intercalate sep h).length_le

theorem length_le_intercalate_succ {α : Type} (sep : α) (xss : List (List α)) :
    xss.length ≤ ([sep].intercalate xss).length + 1 := by
  induction xss with
  | nil => exact Nat.zero_le _
  | cons xs xss ih =>
    cases xss with
    | nil => exact Nat.le_add_left 1 _
    | cons ys xss =>
      rw [List.intercalate_cons_cons, List.length_append, List.length_append]
      simp only [List.length_cons, List.length_nil] at ih ⊢
      omega

end FieldGraph
