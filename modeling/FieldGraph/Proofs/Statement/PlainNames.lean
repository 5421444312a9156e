import FieldGraph.Proofs.Statement.ByteLexer
import Mathlib.Data.List.TakeWhile

/-!
# Plain names

A name is plain exactly if the lexer makes of it that identifier and nothing else. Then it is read
as that identifier wherever a token begins with it and nothing after it could go on with a name,
and the lexer goes on right behind it.
-/
namespace FieldGraph

variable {source front cs rest : List Char} {lexemes : List Lexeme} {name : String}

namespace Lexer

/-- An identifier is a name between backticks, or a word that is no keyword. -/
theorem token_eq_identifier {c : Char} {n : Nat} (h : token c rest = .ok (.identifier name, n)) :
    '\x60' ∉ name.toList ∧ c = '\x60' ∨
      Text.startsIdentifier c = true ∧
        name.toList = (c :: rest).takeWhile Text.continuesIdentifier ∧
        Token.ofWord name.toList = .identifier name := by
  unfold token at h
  split at h
  case isTrue =>
    unfold string at h
    split at h <;> cases h
  case isFalse =>
    split at h
    case isTrue htick =>
      refine .inl ⟨?_, eq_of_beq htick⟩
      unfold quotedIdentifier at h
      dsimp only at h
      split at h
      · cases h
        rw [String.toList_ofList]
        intro hmem
        simpa using List.mem_takeWhile_imp hmem
      · cases h
    case isFalse =>
      split at h
      case isTrue hdigit =>
        have hfirst : Numeral.startsWithDigit (c :: rest) = true := hdigit
        rcases number_eq_read hfirst with ⟨-, x, -, hnumber⟩ | ⟨-, hnumber⟩
        · rw [hnumber] at h
          cases h
        · rw [hnumber] at h
          split at h <;> cases h
      case isFalse =>
        split at h
        case isTrue hstart =>
          have hword : Token.ofWord ((c :: rest).takeWhile Text.continuesIdentifier) =
              .identifier name := congrArg Prod.fst (Except.ok.inj h)
          obtain ⟨hname, -⟩ := Token.ofWord_eq_identifier.mp hword
          exact .inr ⟨hstart, hname.symm, hname ▸ hword⟩
        case isFalse =>
          unfold sign at h
          split at h <;> cases h

theorem lexFrom_blanks {blanks : List Char} (h : ∀ c ∈ blanks, Text.isBlank c = true)
    (position : Nat) (cs : List Char) :
    lexFrom position 0 (blanks ++ cs) = lexFrom (position + byteLength blanks) 0 cs := by
  induction blanks generalizing position with
  | nil => rfl
  | cons c blanks ih =>
    obtain ⟨hc, hblanks⟩ := List.forall_mem_cons.mp h
    rw [List.cons_append, lexFrom, if_pos hc, ih hblanks, byteLength, Nat.add_assoc]

theorem lexFrom_token {c : Char} (hc : Text.isBlank c = false) (position : Nat)
    (rest : List Char) :
    lexFrom position 0 (c :: rest) = match token c rest with
      | .error fault => .error ⟨fault, position⟩
      | .ok (t, n) =>
        (lexFrom (position + byteLength (c :: rest.take (n - 1))) 0 (rest.drop (n - 1))).map
          (⟨t, position⟩ :: ·) := by
  rw [lexFrom, if_neg (by simp [hc])]
  cases token c rest with
  | error fault => rfl
  | ok found =>
    obtain ⟨t, n⟩ := found
    dsimp only
    rw [lexFrom_drop, byteLength, ← Nat.add_assoc]
    cases lexFrom (position + c.utf8Size + byteLength (rest.take (n - 1))) 0
      (rest.drop (n - 1)) with
    | error e => rfl
    | ok others => rfl

end Lexer

theorem exists_blanks (cs : List Char) : ∃ blanks rest, cs = blanks ++ rest ∧
    (∀ c ∈ blanks, Text.isBlank c = true) ∧ ∀ c ∈ rest.head?, Text.isBlank c = false := by
  refine ⟨_, _, List.takeWhile_append_dropWhile.symm, fun c hc => List.mem_takeWhile_imp hc, ?_⟩
  intro c hc
  have hhead := List.head?_dropWhile_not Text.isBlank cs
  rw [hc] at hhead
  simpa using hhead

theorem isPlainIdentifier_of_lex (h : lex name.toList = .ok lexemes)
    (htokens : lexemes.map Lexeme.token = [.identifier name]) : isPlainIdentifier name = true := by
  obtain ⟨blanks, rest, hname, hblanks, hfirst⟩ := exists_blanks name.toList
  rw [lex, hname, Lexer.lexFrom_blanks hblanks] at h
  cases rest with
  | nil =>
    cases h
    cases htokens
  | cons c rest =>
    rw [Lexer.lexFrom_token (hfirst c rfl)] at h
    cases htoken : Lexer.token c rest with
    | error fault =>
      rw [htoken] at h
      cases h
    | ok found =>
      obtain ⟨t, n⟩ := found
      rw [htoken] at h
      obtain ⟨others, -, rfl⟩ := map_eq_ok.mp h
      obtain ⟨rfl, -⟩ := List.cons.inj htokens
      rcases Lexer.token_eq_identifier htoken with ⟨htick, rfl⟩ | ⟨hstart, hword, hspelled⟩
      · -- The backtick itself would be part of the name.
        exact absurd (hname ▸ List.mem_append_right blanks List.mem_cons_self) htick
      · -- The word is as long as the text, so no blank comes before it and nothing after it.
        have hprefix := List.takeWhile_prefix Text.continuesIdentifier (l := c :: rest)
        have hlength := congrArg List.length hname
        rw [List.length_append, hword] at hlength
        have hall : (c :: rest).takeWhile Text.continuesIdentifier = c :: rest := by
          have hshort := hprefix.length_le
          exact hprefix.eq_of_length (by omega)
        rw [hall] at hword
        have hcontinues : ∀ d ∈ c :: rest, Text.continuesIdentifier d = true :=
          List.takeWhile_eq_self_iff.mp hall
        rw [hword] at hspelled
        exact isPlainIdentifier_iff.mpr
          ⟨c, rest, hword, hstart, (List.forall_mem_cons.mp hcontinues).2, hspelled⟩

theorem lex_plain (hplain : isPlainIdentifier name = true) :
    ∃ lexemes, lex name.toList = .ok lexemes ∧ lexemes.map Lexeme.token = [.identifier name] := by
  have hends : EndsWord [] := by simp [EndsWord]
  obtain ⟨lexemes, htokens, hlex⟩ := (Lexes.identifier hplain hends).lex_eq
  exact ⟨lexemes, hlex, htokens⟩

namespace ByteLexer

variable {before after : Chars} {l : Lexeme}

def next (source : List Char) (before : Chars) : Checked (Option (Lexeme × Chars)) :=
  match before.dropWhile fun x => Text.isBlank x.2 with
  | [] => return none
  | (start, c) :: rest => do
    let (t, rest) ← token source start c rest
    return some (⟨t, start⟩, rest)

/-- The lexer takes one token after another. -/
theorem marks_succ (source : List Char) (limit : Nat) (before : Chars) :
    marks source (limit + 1) before = (do
      match ← next source before with
      | none => return [⟨none, byteLength source⟩]
      | some (l, rest) =>
        let others ← marks source limit rest
        return ⟨some l.token, l.position⟩ :: others) := by
  rw [marks, next]
  cases before.dropWhile fun x => Text.isBlank x.2 with
  | nil => rfl
  | cons first rest => simp only [bind_assoc, pure_bind]

/-- After the tokens `lexemes` of the text, `before` is what is left of it. -/
inductive Reaches (source : List Char) : List Lexeme → Chars → Prop
  | start : Reaches source [] (chars 0 source)
  | next {lexemes : List Lexeme} {before after : Chars} {l : Lexeme}
      (h : Reaches source lexemes before)
      (hnext : ByteLexer.next source before = pure (some (l, after))) :
      Reaches source (lexemes ++ [l]) after

/-- After the tokens `lexemes` and the blanks behind them, the next token of the text begins with
`rest`, in front of which `front` stands. -/
structure TokenStart (front rest : List Char) (lexemes : List Lexeme) (before : Chars) : Prop where
  reached : Reaches (front ++ rest) lexemes before
  passed : before.dropWhile (fun x => Text.isBlank x.2) = chars (byteLength front) rest

theorem dropWhile_blanks {blanks : List Char} (h : ∀ c ∈ blanks, Text.isBlank c = true)
    (hfirst : ∀ c ∈ rest.head?, Text.isBlank c = false) (start : Nat) :
    (chars start (blanks ++ rest)).dropWhile (fun x => Text.isBlank x.2) =
      chars (start + byteLength blanks) rest := by
  induction blanks generalizing start with
  | nil =>
    cases rest with
    | nil => rfl
    | cons c rest => simp [chars, byteLength, hfirst c rfl]
  | cons c blanks ih =>
    obtain ⟨hc, hblanks⟩ := List.forall_mem_cons.mp h
    rw [List.cons_append, chars, List.dropWhile_cons, if_pos hc, ih hblanks, byteLength,
      Nat.add_assoc]

/-- The next token begins at the first character that is not blank. -/
theorem next_eq {c : Char}
    (h : before.dropWhile (fun x => Text.isBlank x.2) = chars (byteLength front) (c :: rest)) :
    next (front ++ c :: rest) before = match Lexer.token c rest with
      | .ok (t, n) => pure (some (⟨t, byteLength front⟩,
          (chars (byteLength front + c.utf8Size) rest).drop (n - 1)))
      | .error fault => throw ⟨fault, byteLength front⟩ := by
  rw [next, h, chars]
  dsimp only
  rw [token_eq]
  cases Lexer.token c rest with
  | error fault => rfl
  | ok found => rfl

theorem lexFrom_of_next (h : next (front ++ cs) (chars (byteLength front) cs) =
      pure (some (l, after))) :
    ∃ read rest, cs = read ++ rest ∧ after = chars (byteLength (front ++ read)) rest ∧
      Lexer.lexFrom (byteLength front) 0 cs =
        (Lexer.lexFrom (byteLength (front ++ read)) 0 rest).map (l :: ·) := by
  obtain ⟨blanks, rest, rfl, hblanks, hfirst⟩ := exists_blanks cs
  have hpassed := dropWhile_blanks hblanks hfirst (byteLength front)
  rw [Lexer.lexFrom_blanks hblanks]
  rw [← byteLength_append] at hpassed ⊢
  cases rest with
  | nil =>
    rw [next, hpassed] at h
    cases h
  | cons c rest =>
    rw [← List.append_assoc, next_eq hpassed] at h
    rw [Lexer.lexFrom_token (hfirst c rfl)]
    cases htoken : Lexer.token c rest with
    | error fault =>
      rw [htoken] at h
      cases h
    | ok found =>
      obtain ⟨t, n⟩ := found
      rw [htoken] at h
      cases h
      have hend : byteLength (front ++ (blanks ++ c :: rest.take (n - 1))) =
          byteLength (front ++ blanks) + byteLength (c :: rest.take (n - 1)) := by
        rw [← List.append_assoc, byteLength_append (front ++ blanks)]
      refine ⟨blanks ++ c :: rest.take (n - 1), rest.drop (n - 1), ?_, ?_, ?_⟩
      · rw [List.append_assoc, List.cons_append, List.take_append_drop]
      · rw [drop_chars, hend, byteLength, Nat.add_assoc]
      · rw [hend]

/-- The tokens that the lexer comes past are the first ones of the text. -/
theorem Reaches.lex_eq (h : Reaches source lexemes before) :
    ∃ front rest, source = front ++ rest ∧ before = chars (byteLength front) rest ∧
      FieldGraph.lex source =
        (Lexer.lexFrom (byteLength front) 0 rest).map (lexemes ++ ·) := by
  induction h with
  | start =>
    refine ⟨[], source, rfl, rfl, ?_⟩
    show Lexer.lexFrom 0 0 source = (Lexer.lexFrom 0 0 source).map _
    cases Lexer.lexFrom 0 0 source with
    | error e => rfl
    | ok others => rfl
  | next _ hnext ih =>
    obtain ⟨front, cs, rfl, rfl, hlex⟩ := ih
    obtain ⟨read, rest, rfl, rfl, hstep⟩ := lexFrom_of_next hnext
    refine ⟨front ++ read, rest, (List.append_assoc ..).symm, rfl, ?_⟩
    rw [hlex, hstep]
    cases Lexer.lexFrom (byteLength (front ++ read)) 0 rest with
    | error e => rfl
    | ok others =>
      show Except.ok (_ ++ _ :: others) = Except.ok (_ ++ [_] ++ others)
      rw [List.append_assoc]
      rfl

theorem tokens_ofLexemes (source : List Char) (lexemes : List Lexeme) :
    (ofLexemes source lexemes).map Mark.token =
      (lexemes.map Lexeme.token).map some ++ [none] := by
  simp [ofLexemes]

theorem exists_marks_iff (source : List Char) (tokens : List Token) :
    (∃ marks, lex source = pure marks ∧ marks.map Mark.token = tokens.map some ++ [none]) ↔
      ∃ lexemes, FieldGraph.lex source = .ok lexemes ∧ lexemes.map Lexeme.token = tokens := by
  rw [lex_eq]
  constructor
  · rintro ⟨marks, hmarks, htokens⟩
    obtain ⟨lexemes, hlex, rfl⟩ := map_eq_ok.mp (Option.some.inj hmarks)
    rw [tokens_ofLexemes] at htokens
    exact ⟨lexemes, hlex, List.map_injective_iff.mpr (Option.some_injective Token)
      (List.append_cancel_right htokens)⟩
  · rintro ⟨lexemes, hlex, rfl⟩
    refine ⟨ofLexemes source lexemes, ?_, tokens_ofLexemes source lexemes⟩
    rw [hlex]
    rfl

theorem next_plain (hplain : isPlainIdentifier name = true) (hends : EndsWord rest)
    (hpassed : before.dropWhile (fun x => Text.isBlank x.2) =
      chars (byteLength front) (name.toList ++ rest)) :
    next (front ++ (name.toList ++ rest)) before =
      pure (some (⟨.identifier name, byteLength front⟩,
        chars (byteLength (front ++ name.toList)) rest)) := by
  obtain ⟨c, cs, hname, hc, hcs, htoken⟩ := isPlainIdentifier_iff.mp hplain
  rw [hname, List.cons_append] at hpassed ⊢
  rw [next_eq hpassed, Lexer.token_word hc hcs hends, htoken]
  dsimp only
  rw [drop_chars, List.length_cons, Nat.add_sub_cancel, List.take_left, List.drop_left,
    byteLength_append, byteLength, Nat.add_assoc]

end ByteLexer

/-- A name is plain exactly if the lexer makes of it that identifier and the end. At every place of
a text at which a token begins with a plain name, and nothing after it goes on with a name, the
lexer reads that identifier and goes on right behind it. -/
theorem plain_name_read (name : String) :
    (isPlainIdentifier name = true ↔ ∃ marks, ByteLexer.lex name.toList = pure marks ∧
      marks.map Mark.token = [some (.identifier name), none]) ∧
    (isPlainIdentifier name = true → ∀ front rest lexemes before, EndsWord rest →
      ByteLexer.TokenStart front (name.toList ++ rest) lexemes before →
      ByteLexer.next (front ++ (name.toList ++ rest)) before =
          pure (some (⟨.identifier name, byteLength front⟩,
            ByteLexer.chars (byteLength (front ++ name.toList)) rest)) ∧
        lex (front ++ (name.toList ++ rest)) =
          (Lexer.lexFrom (byteLength (front ++ name.toList)) 0 rest).map
            (lexemes ++ ⟨.identifier name, byteLength front⟩ :: ·)) := by
  constructor
  · refine Iff.trans ⟨lex_plain, ?_⟩
      (ByteLexer.exists_marks_iff name.toList [.identifier name]).symm
    rintro ⟨lexemes, hlex, htokens⟩
    exact isPlainIdentifier_of_lex hlex htokens
  · intro hplain front rest lexemes before hends hstart
    have hnext := ByteLexer.next_plain hplain hends hstart.passed
    refine ⟨hnext, ?_⟩
    obtain ⟨longer, last, hsource, hleft, hlex⟩ := (hstart.reached.next hnext).lex_eq
    have hlast : rest = last := by
      have hchars := congrArg (List.map Prod.snd) hleft
      rwa [ByteLexer.map_chars, ByteLexer.map_chars] at hchars
    subst hlast
    rw [← List.append_assoc] at hsource
    rw [hlex, ← List.append_cancel_right hsource]
    simp only [List.append_assoc, List.singleton_append]

/-- A label that begins like a keyword and ends in a character of two bytes. -/
theorem label_behind_colon_read :
    isPlainIdentifier "nullß" = true ∧ EndsWord [')'] ∧
      ByteLexer.TokenStart "(größe:".toList ("nullß".toList ++ [')'])
        [⟨.openParen, 0⟩, ⟨.identifier "größe", 1⟩, ⟨.colon, 8⟩]
        (ByteLexer.chars 9 "nullß)".toList) ∧
      ByteLexer.next "(größe:nullß)".toList (ByteLexer.chars 9 "nullß)".toList) =
        pure (some (⟨.identifier "nullß", 9⟩, [(15, ')')])) ∧
      lex "(größe:nullß)".toList = .ok [⟨.openParen, 0⟩, ⟨.identifier "größe", 1⟩, ⟨.colon, 8⟩,
        ⟨.identifier "nullß", 9⟩, ⟨.closeParen, 15⟩] := by
  have hplain : isPlainIdentifier "nullß" = true := by decide
  have hends : EndsWord [')'] := endsWord_cons [] (by decide)
  have hstart : ByteLexer.TokenStart "(größe:".toList ("nullß".toList ++ [')'])
      [⟨.openParen, 0⟩, ⟨.identifier "größe", 1⟩, ⟨.colon, 8⟩]
      (ByteLexer.chars 9 "nullß)".toList) :=
    ⟨((ByteLexer.Reaches.start.next rfl).next rfl).next rfl, rfl⟩
  obtain ⟨hnext, hlex⟩ := (plain_name_read "nullß").2 hplain _ _ _ _ hends hstart
  exact ⟨hplain, hends, hstart, hnext, hlex⟩

end FieldGraph
