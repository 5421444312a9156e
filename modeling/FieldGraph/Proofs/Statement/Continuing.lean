import FieldGraph.Proofs.Outcome
import FieldGraph.Proofs.Statement.Tokens

/-!
# Texts in front of others

A token is read from its own characters, up to two of them further on. So a text that is cut into
tokens on its own is cut into the same tokens in front of any text that cannot go on with the last.
-/
namespace FieldGraph

/-- The text cannot go on with a token that ends before it. -/
def EndsToken (rest : List Char) : Prop :=
  ∀ c ∈ rest.head?, Text.continuesIdentifier c = false ∧ c ∉ ['.', '+', '-', '>']

theorem EndsToken.endsLiteral {rest : List Char} (h : EndsToken rest) : EndsLiteral rest := by
  intro c hc
  obtain ⟨hword, hsign⟩ := h c hc
  refine ⟨hword, ?_⟩
  rintro rfl
  exact hsign (by decide)

theorem endsToken_cons {c : Char} (rest : List Char)
    (h : Text.continuesIdentifier c = false ∧ c ∉ ['.', '+', '-', '>']) :
    EndsToken (c :: rest) := by
  simpa only [EndsToken, List.head?_cons, Option.mem_some_iff, forall_eq'] using h

namespace Lexer

variable {c : Char} {cs rest : List Char} {t : Token} {n : Nat}

theorem stringBody?_append {quote : Char} {text : List Char}
    (h : stringBody? quote cs = some (text, n)) :
    stringBody? quote (cs ++ rest) = some (text, n) ∧ n ≤ cs.length := by
  induction cs using stringBody?.induct quote generalizing text n with
  | case1 => cases h
  | case2 c hc =>
    rw [stringBody?.eq_def] at h
    simp [hc] at h
  | case3 c hc e cs ih =>
    rw [eq_of_beq hc, stringBody?_escape] at h
    obtain ⟨⟨body, m⟩, hbody, heq⟩ := Option.map_eq_some_iff.mp h
    obtain ⟨hmore, hlength⟩ := ih hbody
    cases heq
    refine ⟨?_, ?_⟩
    · rw [eq_of_beq hc, List.cons_append, List.cons_append, stringBody?_escape, hmore]
      rfl
    · simp only [List.length_cons]
      omega
  | case4 c cs hc hquote =>
    have hslash : c ≠ '\\' := by simpa using hc
    rw [eq_of_beq hquote] at h hslash ⊢
    rw [stringBody?_close cs hslash] at h
    cases h
    refine ⟨stringBody?_close (cs ++ rest) hslash, ?_⟩
    simp
  | case5 c cs hc hquote ih =>
    have hslash : c ≠ '\\' := by simpa using hc
    have hother : c ≠ quote := by simpa using hquote
    rw [stringBody?_plain cs hslash hother] at h
    obtain ⟨⟨body, m⟩, hbody, heq⟩ := Option.map_eq_some_iff.mp h
    obtain ⟨hmore, hlength⟩ := ih hbody
    cases heq
    refine ⟨?_, Nat.succ_le_succ hlength⟩
    rw [List.cons_append, stringBody?_plain (cs ++ rest) hslash hother, hmore]
    rfl

theorem string_append {quote : Char} (h : string quote cs = .ok (t, n)) :
    string quote (cs ++ rest) = .ok (t, n) ∧ n ≤ cs.length + 1 := by
  unfold string at h
  split at h
  case h_1 text m hbody =>
    obtain ⟨hmore, hlength⟩ := @stringBody?_append _ rest _ _ _ hbody
    cases h
    exact ⟨by rw [string, hmore], Nat.succ_le_succ hlength⟩
  case h_2 => cases h

theorem quotedIdentifier_append (h : quotedIdentifier cs = .ok (t, n)) :
    quotedIdentifier (cs ++ rest) = .ok (t, n) ∧ n ≤ cs.length + 1 := by
  unfold quotedIdentifier at h
  dsimp only at h
  split at h
  case isTrue hshort =>
    cases h
    have htake : (cs ++ rest).takeWhile (· != '\x60') = cs.takeWhile (· != '\x60') := by
      rw [List.takeWhile_append, if_neg (Nat.ne_of_lt hshort)]
    refine ⟨?_, by omega⟩
    rw [quotedIdentifier, htake, if_pos (by rw [List.length_append]; omega)]
  case isFalse => cases h

theorem word_append (hrest : EndsToken rest) : word (cs ++ rest) = word cs := by
  rw [word, (Text.takeWhile_append_of_end cs hrest.endsLiteral.endsWord).1]
  rfl

theorem length_of_word (h : word cs = .ok (t, n)) : n ≤ cs.length := by
  cases h
  exact (List.takeWhile_sublist _).length_le

theorem startsWithDigit_append (hrest : EndsToken rest) :
    Numeral.startsWithDigit (cs ++ rest) = Numeral.startsWithDigit cs := by
  cases cs with
  | nil =>
    cases rest with
    | nil => rfl
    | cons c rest => exact not_isDigit_of_endsLiteral hrest.endsLiteral c rfl
  | cons c cs => rfl

theorem spanDigits_append (hrest : EndsToken rest) :
    Numeral.spanDigits (cs ++ rest) =
      ((Numeral.spanDigits cs).1, (Numeral.spanDigits cs).2 ++ rest) := by
  obtain ⟨htake, hdrop⟩ :=
    Text.takeWhile_append_of_end cs (not_isDigit_of_endsLiteral hrest.endsLiteral)
  rw [Numeral.spanDigits, htake, hdrop]
  rfl

theorem fraction_append (hrest : EndsToken rest) :
    fraction (cs ++ rest) = ((fraction cs).1, (fraction cs).2 ++ rest) := by
  cases cs with
  | nil => exact fraction_of_endsLiteral hrest.endsLiteral
  | cons c cs =>
    by_cases hpoint : c = '.'
    · subst hpoint
      rw [List.cons_append, fraction, fraction, startsWithDigit_append hrest]
      by_cases hdigit : Numeral.startsWithDigit cs = true
      · rw [if_pos hdigit, if_pos hdigit, spanDigits_append hrest]
      · rw [if_neg hdigit, if_neg hdigit]
        rfl
    · rw [List.cons_append, fraction.eq_2, fraction.eq_2]
      · rfl
      · rintro _ heq
        exact hpoint (List.cons.inj heq).1
      · rintro _ heq
        exact hpoint (List.cons.inj heq).1

theorem spanSign_append (hrest : EndsToken rest) :
    Numeral.spanSign (cs ++ rest) =
      ((Numeral.spanSign cs).1, (Numeral.spanSign cs).2 ++ rest) := by
  have hother : ∀ c ds, c ≠ '+' → c ≠ '-' → Numeral.spanSign (c :: ds) = (none, c :: ds) := by
    intro c ds hplus hminus
    unfold Numeral.spanSign
    split <;> simp_all
  cases cs with
  | nil =>
    cases rest with
    | nil => rfl
    | cons c rest =>
      have hsign := (hrest c rfl).2
      apply hother
      · rintro rfl
        exact hsign (by decide)
      · rintro rfl
        exact hsign (by decide)
  | cons c cs =>
    by_cases hplus : c = '+'
    · subst hplus
      rfl
    · by_cases hminus : c = '-'
      · subst hminus
        rfl
      · rw [List.cons_append, hother c _ hplus hminus, hother c _ hplus hminus]
        rfl

theorem exponent_append (hrest : EndsToken rest) : exponent (cs ++ rest) = exponent cs := by
  cases cs with
  | nil => exact exponent_of_endsLiteral hrest.endsLiteral
  | cons c cs =>
    obtain ⟨htake, _⟩ := Text.takeWhile_append_of_end (Numeral.spanSign cs).2
      (not_isDigit_of_endsLiteral hrest.endsLiteral)
    rw [List.cons_append, exponent, exponent, spanSign_append hrest]
    dsimp only
    rw [startsWithDigit_append hrest, htake]

theorem number_append (hrest : EndsToken rest) : number (cs ++ rest) = number cs := by
  simp only [number, spanDigits_append hrest, fraction_append hrest, exponent_append hrest]

theorem length_spanDigits (cs : List Char) :
    (Numeral.spanDigits cs).1.length + (Numeral.spanDigits cs).2.length = cs.length := by
  rw [← List.length_append, Numeral.spanDigits, List.takeWhile_append_dropWhile]

theorem length_fraction (cs : List Char) :
    (fraction cs).1 = [] ∧ (fraction cs).2 = cs ∨
      1 + (fraction cs).1.length + (fraction cs).2.length = cs.length := by
  unfold fraction
  split
  case h_1 cs =>
    split
    · have hspan := length_spanDigits cs
      right
      rw [List.length_cons]
      omega
    · exact .inl ⟨rfl, rfl⟩
  case h_2 => exact .inl ⟨rfl, rfl⟩

theorem length_of_exponent {e : Int} (h : exponent cs = some (e, n)) : n ≤ cs.length := by
  cases cs with
  | nil => cases h
  | cons c cs =>
    have hsign : (Numeral.spanSign cs).1.toList.length + (Numeral.spanSign cs).2.length =
        cs.length := by
      unfold Numeral.spanSign
      split <;> simp <;> omega
    have hdigits := ((Numeral.spanSign cs).2.takeWhile_sublist Char.isDigit).length_le
    rw [exponent] at h
    dsimp only at h
    split at h
    · cases h
      rw [List.length_cons]
      omega
    · cases h

theorem length_of_number (h : number cs = .ok (t, n)) : n ≤ cs.length := by
  have hwhole := length_spanDigits cs
  have hpart := length_fraction (Numeral.spanDigits cs).2
  unfold number at h
  dsimp only at h
  split at h
  case h_1 =>
    split at h
    · cases h
      omega
    · cases h
  case h_2 _ hpoint =>
    cases h
    rcases hpart with ⟨hnone, _⟩ | hpart
    · exact absurd hnone hpoint
    · omega
  case h_3 e m hnone hexponent =>
    have hlength := length_of_exponent hexponent
    cases h
    rcases hpart with ⟨_, hsame⟩ | hpart
    · rw [hsame] at hlength
      omega
    · rw [hnone, List.length_nil] at hpart
      omega
  case h_4 e m hexponent hpoint =>
    have hlength := length_of_exponent hexponent
    cases h
    rcases hpart with ⟨hnone, _⟩ | hpart
    · exact absurd hnone hpoint
    · omega

theorem sign_append (hrest : EndsToken rest) : sign c (cs ++ rest) = sign c cs := by
  cases cs with
  | nil =>
    cases rest with
    | nil => rfl
    | cons d rest =>
      have hdash : d ≠ '-' := by
        rintro rfl
        exact (hrest '-' rfl).2 (by decide)
      have harrow : d ≠ '>' := by
        rintro rfl
        exact (hrest '>' rfl).2 (by decide)
      unfold sign
      split <;> simp_all
  | cons d cs =>
    unfold sign
    split <;> simp_all

theorem length_of_sign (h : sign c cs = .ok (t, n)) : n ≤ cs.length + 1 := by
  unfold sign at h
  split at h
  all_goals cases h
  all_goals simp

theorem token_append (hrest : EndsToken rest) (h : token c cs = .ok (t, n)) :
    token c (cs ++ rest) = .ok (t, n) ∧ n ≤ cs.length + 1 := by
  unfold token at h ⊢
  split at h
  case isTrue hquote =>
    rw [if_pos hquote]
    exact string_append h
  case isFalse hquote =>
    rw [if_neg hquote]
    split at h
    case isTrue htick =>
      rw [if_pos htick]
      exact quotedIdentifier_append h
    case isFalse htick =>
      rw [if_neg htick]
      split at h
      case isTrue hdigit =>
        rw [if_pos hdigit, ← List.cons_append, number_append hrest]
        exact ⟨h, length_of_number h⟩
      case isFalse hdigit =>
        rw [if_neg hdigit]
        split at h
        case isTrue hstart =>
          rw [if_pos hstart, ← List.cons_append, word_append hrest]
          exact ⟨h, length_of_word h⟩
        case isFalse hstart =>
          rw [if_neg hstart, sign_append hrest]
          exact ⟨h, length_of_sign h⟩

theorem lexFrom_append (hrest : EndsToken rest) {position skip : Nat} {lexemes : List Lexeme}
    (hskip : skip ≤ cs.length) (h : lexFrom position skip cs = .ok lexemes) (start : Nat) :
    ∃ found, found.map Lexeme.token = lexemes.map Lexeme.token ∧
      lexFrom start skip (cs ++ rest) =
        (lexFrom (start + byteLength cs) 0 rest).map (found ++ ·) := by
  induction cs generalizing position skip lexemes start with
  | nil =>
    cases h
    refine ⟨[], rfl, ?_⟩
    rw [Nat.le_zero.mp hskip, List.nil_append, byteLength, Nat.add_zero]
    cases lexFrom start 0 rest <;> rfl
  | cons c cs ih =>
    have hstart : ∀ start, start + c.utf8Size + byteLength cs = start + byteLength (c :: cs) :=
      fun start => Nat.add_assoc start c.utf8Size (byteLength cs)
    cases skip with
    | succ skip =>
      rw [← hstart]
      exact ih (Nat.le_of_succ_le_succ hskip) h _
    | zero =>
      rw [lexFrom] at h
      split at h
      case isTrue hblank =>
        rw [← hstart, List.cons_append, lexFrom, if_pos hblank]
        exact ih (Nat.zero_le _) h _
      case isFalse hblank =>
        split at h
        case h_1 => cases h
        case h_2 t n htoken =>
          obtain ⟨others, hothers, h⟩ := bind_eq_ok.mp h
          cases h
          obtain ⟨hmore, hlength⟩ := token_append hrest htoken
          obtain ⟨found, hfound, hlex⟩ := ih (by omega) hothers (start + c.utf8Size)
          refine ⟨⟨t, start⟩ :: found, ?_, ?_⟩
          · rw [List.map_cons, List.map_cons, hfound]
          · rw [List.cons_append, lexFrom, if_neg hblank, hmore, ← hstart]
            dsimp only
            rw [hlex]
            cases lexFrom (start + c.utf8Size + byteLength cs) 0 rest <;> rfl

end Lexer

/-- What a text is cut into on its own, it is cut into in front of another text. -/
theorem Lexes.of_lex {text rest : List Char} {lexemes : List Lexeme} (h : lex text = .ok lexemes)
    (hrest : EndsToken rest) : Lexes text rest (lexemes.map Lexeme.token) :=
  fun position => Lexer.lexFrom_append hrest (Nat.zero_le _) h position

end FieldGraph
