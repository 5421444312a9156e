import FieldGraph.Proofs.Statement.Lexing
import FieldGraph.Value.Text

/-!
# Reading single tokens

The written form of each kind of token is read as that token: signs, words, names between
backticks, strings and numbers.
-/
namespace FieldGraph

/-- The signs of one character that no following character changes. -/
def plainSigns : List (Char × Token) :=
  [('(', .openParen), (')', .closeParen), ('[', .openBracket), (']', .closeBracket),
    ('\x7b', .openBrace), ('\x7d', .closeBrace), (':', .colon), (';', .semicolon), (',', .comma),
    ('.', .dot), ('=', .equals)]

theorem Lexes.sign {c : Char} {t : Token} (rest : List Char) (h : (c, t) ∈ plainSigns) :
    Lexes [c] rest [t] := by
  simp only [plainSigns, List.mem_cons, List.not_mem_nil, or_false, Prod.mk.injEq] at h
  rcases h with ⟨rfl, rfl⟩ | ⟨rfl, rfl⟩ | ⟨rfl, rfl⟩ | ⟨rfl, rfl⟩ | ⟨rfl, rfl⟩ | ⟨rfl, rfl⟩ |
    ⟨rfl, rfl⟩ | ⟨rfl, rfl⟩ | ⟨rfl, rfl⟩ | ⟨rfl, rfl⟩ | ⟨rfl, rfl⟩ <;>
    exact Lexes.token (by decide) rfl

theorem Lexes.dash {rest : List Char} (h : rest.head? ≠ some '>') : Lexes ['-'] rest [.dash] := by
  refine Lexes.token (by decide) ?_
  match rest with
  | [] => rfl
  | c :: rest =>
    have hc : c ≠ '>' := fun heq => h (by rw [heq]; rfl)
    show Lexer.sign '-' (c :: rest) = _
    unfold Lexer.sign
    split <;> simp_all

theorem Lexes.rightArrow (rest : List Char) : Lexes ['-', '>'] rest [.rightArrow] :=
  Lexes.token (by decide) rfl

theorem Lexes.space (rest : List Char) : Lexes [' '] rest [] :=
  Lexes.blank rest (by decide)

namespace Lexer

theorem token_of_startsIdentifier {c : Char} (h : Text.startsIdentifier c = true)
    (rest : List Char) : token c rest = word (c :: rest) := by
  have hquote : c ≠ '\'' := by
    rintro rfl
    exact absurd h (by decide)
  have hdouble : c ≠ '\x22' := by
    rintro rfl
    exact absurd h (by decide)
  have htick : c ≠ '\x60' := by
    rintro rfl
    exact absurd h (by decide)
  have hdigit : c.isDigit = false := by
    rw [Bool.eq_false_iff]
    intro hd
    simp [Text.not_startsIdentifier_of_isDigit hd] at h
  simp [token, hquote, hdouble, htick, hdigit, h]

theorem token_of_isDigit {c : Char} (h : c.isDigit = true) (rest : List Char) :
    token c rest = number (c :: rest) := by
  have hquote : c ≠ '\'' := by
    rintro rfl
    exact absurd h (by decide)
  have hdouble : c ≠ '\x22' := by
    rintro rfl
    exact absurd h (by decide)
  have htick : c ≠ '\x60' := by
    rintro rfl
    exact absurd h (by decide)
  simp [token, hquote, hdouble, htick, h]

theorem token_word {c : Char} {cs rest : List Char} (hc : Text.startsIdentifier c = true)
    (hcs : ∀ d ∈ cs, Text.continuesIdentifier d = true) (hrest : EndsWord rest) :
    token c (cs ++ rest) = .ok (.ofWord (c :: cs), (c :: cs).length) := by
  have hall : ∀ d ∈ c :: cs, Text.continuesIdentifier d = true := by
    intro d hd
    rcases List.mem_cons.mp hd with rfl | hd
    · exact Text.continuesIdentifier_of_startsIdentifier hc
    · exact hcs d hd
  rw [token_of_startsIdentifier hc, word, ← List.cons_append,
    (Text.takeWhile_append_of_head _ hall hrest).1]

end Lexer

theorem Lexes.word {c : Char} {cs rest : List Char} (hc : Text.startsIdentifier c = true)
    (hcs : ∀ d ∈ cs, Text.continuesIdentifier d = true) (hrest : EndsWord rest) :
    Lexes (c :: cs) rest [.ofWord (c :: cs)] :=
  Lexes.token (Text.not_blank_of_startsIdentifier hc) (Lexer.token_word hc hcs hrest)

theorem Token.ofWord_eq_identifier {word : List Char} {name : String} :
    Token.ofWord word = .identifier name ↔ word = name.toList ∧ keyword? word = none := by
  unfold Token.ofWord
  cases hword : keyword? word with
  | some k => simp
  | none =>
    simp only [Token.identifier.injEq, and_true]
    constructor
    · rintro rfl
      rw [String.toList_ofList]
    · rintro rfl
      rw [String.ofList_toList]

/-- A plain name is a word that is no keyword. -/
theorem isPlainIdentifier_iff {name : String} : isPlainIdentifier name = true ↔
    ∃ c cs, name.toList = c :: cs ∧ Text.startsIdentifier c = true ∧
      (∀ d ∈ cs, Text.continuesIdentifier d = true) ∧
      Token.ofWord (c :: cs) = .identifier name := by
  unfold isPlainIdentifier
  cases hname : name.toList with
  | nil => simp
  | cons c cs =>
    simp [Token.ofWord_eq_identifier, hname, and_assoc]

theorem Lexes.identifier {name : String} {rest : List Char} (h : isPlainIdentifier name = true)
    (hrest : EndsWord rest) : Lexes name.toList rest [.identifier name] := by
  obtain ⟨c, cs, hname, hc, hcs, htoken⟩ := isPlainIdentifier_iff.mp h
  rw [hname, ← htoken]
  exact Lexes.word hc hcs hrest

theorem Lexes.quotedIdentifier {name : List Char} (rest : List Char) (h : '\x60' ∉ name) :
    Lexes ('\x60' :: (name ++ ['\x60'])) rest [.identifier (String.ofList name)] := by
  refine Lexes.token (by decide) ?_
  have htake : ((name ++ ['\x60']) ++ rest).takeWhile (· != '\x60') = name := by
    rw [List.append_assoc]
    refine (Text.takeWhile_append_of_head _ (fun c hc => ?_) (by simp)).1
    simpa using fun heq : c = '\x60' => h (heq ▸ hc)
  show Lexer.quotedIdentifier _ = _
  simp only [Lexer.quotedIdentifier, htake]
  simp

namespace Lexer

theorem stringBody?_escape (quote e : Char) (rest : List Char) :
    stringBody? quote ('\\' :: e :: rest) =
      (stringBody? quote rest).map fun (text, n) => (unescape e :: text, n + 2) := by
  rw [stringBody?.eq_def]
  simp

theorem stringBody?_plain {quote c : Char} (rest : List Char) (hc : c ≠ '\\') (hq : c ≠ quote) :
    stringBody? quote (c :: rest) =
      (stringBody? quote rest).map fun (text, n) => (c :: text, n + 1) := by
  rw [stringBody?.eq_def]
  simp [hc, hq]

theorem stringBody?_close {quote : Char} (rest : List Char) (hq : quote ≠ '\\') :
    stringBody? quote (quote :: rest) = some ([], 1) := by
  rw [stringBody?.eq_def]
  simp [hq]

theorem stringBody?_literal (s rest : List Char) :
    stringBody? '\'' (s.flatMap literalChar ++ '\'' :: rest) =
      some (s, (s.flatMap literalChar).length + 1) := by
  induction s with
  | nil => exact stringBody?_close rest (by decide)
  | cons c s ih =>
    by_cases hesc : c = '\'' ∨ c = '\\'
    · have hchar : literalChar c = ['\\', c] := by
        rcases hesc with rfl | rfl <;> rfl
      have hunescape : unescape c = c := by
        rcases hesc with rfl | rfl <;> rfl
      rw [List.flatMap_cons, hchar, List.append_assoc]
      show stringBody? '\'' ('\\' :: c :: (s.flatMap literalChar ++ '\'' :: rest)) = _
      rw [stringBody?_escape, ih, hunescape]
      simp
    · obtain ⟨hquote, hslash⟩ := not_or.mp hesc
      have hchar : literalChar c = [c] := by simp [literalChar, hquote, hslash]
      rw [List.flatMap_cons, hchar, List.append_assoc]
      show stringBody? '\'' (c :: (s.flatMap literalChar ++ '\'' :: rest)) = _
      rw [stringBody?_plain _ hslash hquote, ih]
      simp

end Lexer

theorem Lexes.string (s : String) (rest : List Char) :
    Lexes (quoteLiteral s).toList rest [.string s] := by
  have htext : (quoteLiteral s).toList = '\'' :: (s.toList.flatMap literalChar ++ ['\'']) := by
    simp [quoteLiteral]
  rw [htext]
  refine Lexes.token (by decide) ?_
  rw [List.append_assoc]
  show Lexer.string '\'' _ = _
  simp [Lexer.string, Lexer.stringBody?_literal]

namespace Lexer

theorem fraction_of_endsLiteral {rest : List Char} (h : EndsLiteral rest) :
    fraction rest = ([], rest) := by
  unfold fraction
  split
  case h_1 rest => exact absurd rfl (h '.' rfl).2
  case h_2 => rfl

theorem exponent_of_endsLiteral {rest : List Char} (h : EndsLiteral rest) :
    exponent rest = none := by
  match rest with
  | [] => rfl
  | c :: rest =>
    have hc := (h c rfl).1
    have hlower : c ≠ 'e' := by
      rintro rfl
      exact absurd hc (by decide)
    have hupper : c ≠ 'E' := by
      rintro rfl
      exact absurd hc (by decide)
    simp [exponent, hlower, hupper]

theorem not_isDigit_of_endsLiteral {rest : List Char} (h : EndsLiteral rest) :
    ∀ c ∈ rest.head?, c.isDigit = false := by
  intro c hc
  rw [Bool.eq_false_iff]
  intro hd
  have := (h c hc).1
  simp [Text.continuesIdentifier_of_isDigit hd] at this

theorem number_digits (digits : List Char) {rest : List Char}
    (hdigits : ∀ c ∈ digits, c.isDigit = true) (hrest : EndsLiteral rest) :
    number (digits ++ rest) =
      if Numeral.ofDigits digits < 0x8000000000000000 then
        .ok (.integer (Int64.ofNat (Numeral.ofDigits digits)), digits.length)
      else .error (.integerOutOfRange (String.ofList digits)) := by
  obtain ⟨htake, hdrop⟩ :=
    Text.takeWhile_append_of_head _ hdigits (not_isDigit_of_endsLiteral hrest)
  simp only [number, Numeral.spanDigits, htake, hdrop, fraction_of_endsLiteral hrest,
    exponent_of_endsLiteral hrest]

theorem exponent_text (e : Int) {rest : List Char} (hrest : EndsLiteral rest) :
    exponent ('e' :: Layout.intText e ++ rest) =
      some (e, ('e' :: Layout.intText e).length) := by
  obtain ⟨digits, hd⟩ : ∃ digits, digits = Nat.toDigits 10 e.natAbs := ⟨_, rfl⟩
  have hdigits : ∀ c ∈ digits, c.isDigit = true := fun c hc =>
    Layout.mem_toDigits_isDigit (hd ▸ hc)
  have hvalue : Numeral.ofDigits digits = e.natAbs := by rw [hd, Numeral.ofDigits_toDigits]
  have htake := (Text.takeWhile_append_of_head _ hdigits (not_isDigit_of_endsLiteral hrest)).1
  cases digits with
  | nil => exact absurd hd.symm Nat.toDigits_ne_nil
  | cons d ds =>
    have hfirst : d.isDigit = true := hdigits d List.mem_cons_self
    have hplus : d ≠ '+' := by
      rintro rfl
      exact absurd hfirst (by decide)
    have hminus : d ≠ '-' := by
      rintro rfl
      exact absurd hfirst (by decide)
    have hspan : Numeral.spanSign (d :: (ds ++ rest)) = (none, d :: (ds ++ rest)) := by
      unfold Numeral.spanSign
      split <;> simp_all
    rw [List.cons_append] at htake
    by_cases hneg : e < 0
    · have habs : -(e.natAbs : Int) = e := by omega
      simp only [Layout.intText, if_pos hneg, ← hd, List.cons_append, exponent, Numeral.spanSign,
        Numeral.startsWithDigit, hfirst, htake, Numeral.signed, hvalue, if_true, habs]
      simp
      omega
    · have habs : (e.natAbs : Int) = e := by omega
      simp only [Layout.intText, if_neg hneg, ← hd, List.cons_append, exponent, hspan,
        Numeral.startsWithDigit, hfirst, htake, Numeral.signed, hvalue, habs]
      simp
      omega

theorem fraction_digits {digits : List Char} (rest : List Char) (hne : digits ≠ [])
    (hdigits : ∀ c ∈ digits, c.isDigit = true) (hrest : ∀ c ∈ rest.head?, c.isDigit = false) :
    fraction ('.' :: digits ++ rest) = (digits, rest) := by
  obtain ⟨htake, hdrop⟩ := Text.takeWhile_append_of_head _ hdigits hrest
  cases digits with
  | nil => exact absurd rfl hne
  | cons d ds =>
    have hfirst : d.isDigit = true := hdigits d List.mem_cons_self
    simp only [List.cons_append] at htake hdrop
    simp [fraction, Numeral.startsWithDigit, hfirst, Numeral.spanDigits, htake, hdrop]

theorem exponent_spelling (s : Spelling) {rest : List Char} (hrest : EndsLiteral rest) :
    exponent (s.exponentText ++ rest) = s.exponent.map fun e => (e, s.exponentText.length) := by
  obtain ⟨whole, part, e⟩ := s
  cases e with
  | none => exact exponent_of_endsLiteral hrest
  | some e => exact exponent_text e hrest

/-- An exponent starts with a letter, and what follows a literal does not start with a digit. -/
theorem not_isDigit_exponentText (s : Spelling) {rest : List Char} (hrest : EndsLiteral rest) :
    ∀ c ∈ (s.exponentText ++ rest).head?, c.isDigit = false := by
  obtain ⟨whole, part, e⟩ := s
  cases e with
  | none => exact not_isDigit_of_endsLiteral hrest
  | some e => simp [Spelling.exponentText]

theorem fraction_spelling {s : Spelling} (hs : s.Valid) {rest : List Char}
    (hrest : EndsLiteral rest) :
    fraction (s.fractionText ++ (s.exponentText ++ rest)) = (s.part, s.exponentText ++ rest) := by
  have hend := not_isDigit_exponentText s hrest
  obtain ⟨whole, part, e⟩ := s
  cases part with
  | nil =>
    cases e with
    | none => exact fraction_of_endsLiteral hrest
    | some e => rfl
  | cons d ds => exact fraction_digits _ (List.cons_ne_nil d ds) hs.part_digits hend

theorem number_spelling {s : Spelling} (hs : s.Valid) {rest : List Char}
    (hrest : EndsLiteral rest) :
    number (s.text ++ rest) = .ok (.float s.value, s.text.length) := by
  have hend : ∀ c ∈ (s.fractionText ++ (s.exponentText ++ rest)).head?, c.isDigit = false := by
    have hlast := not_isDigit_exponentText s hrest
    obtain ⟨whole, part, e⟩ := s
    cases part with
    | nil => exact hlast
    | cons d ds => simp [Spelling.fractionText]
  obtain ⟨htake, hdrop⟩ := Text.takeWhile_append_of_head _ hs.whole_digits hend
  have htext : s.text ++ rest = s.whole ++ (s.fractionText ++ (s.exponentText ++ rest)) := by
    simp [Spelling.text]
  rw [htext]
  simp only [number, Numeral.spanDigits, htake, hdrop, fraction_spelling hs hrest,
    exponent_spelling s hrest]
  have hmarked := hs.marked
  obtain ⟨whole, part, e⟩ := s
  cases part with
  | nil =>
    cases e with
    | none => simp at hmarked
    | some e => simp [Spelling.text, Spelling.fractionText, Spelling.value]
  | cons d ds =>
    cases e with
    | none =>
      simp [Spelling.text, Spelling.fractionText, Spelling.exponentText, Spelling.value]
      omega
    | some e =>
      simp [Spelling.text, Spelling.fractionText, Spelling.value]
      omega

end Lexer

end FieldGraph
