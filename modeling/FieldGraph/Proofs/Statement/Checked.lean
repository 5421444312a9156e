import FieldGraph.Proofs.Statement.Accepting
import FieldGraph.Proofs.Statement.Positions
import FieldGraph.Proofs.Statement.Tracking
import FieldGraph.Store.Memory

/-!
# No look at a text misses

The lexer that cuts the text at byte offsets and the parser that looks tokens up by their numbers
read every text as a script or with an error, as the parser does, and never miss. Errors stand at
boundaries of the text.
-/
namespace FieldGraph

variable {source : List Char} {lexemes : List Lexeme} {i least : Nat}

namespace Placed

theorem boundary (h : Placed source lexemes) (i : Nat) :
    Boundary source (cursorAt source lexemes i).position := by
  rw [cursorAt, Cursor.position]
  split
  case h_1 l rest hdrop =>
    have hmem : l ∈ lexemes.drop i := List.mem_of_mem_head? (congrArg List.head? hdrop)
    exact (h.within l (List.mem_of_mem_drop hmem)).boundary
  case h_2 => exact boundary_byteLength source

/-- The positions of the tokens and the end of the text come in order. -/
theorem pairwise (h : Placed source lexemes) :
    ((ByteLexer.ofLexemes source lexemes).map Mark.position).Pairwise (· < ·) := by
  rw [ByteLexer.ofLexemes, List.map_append, List.map_map, List.pairwise_append]
  refine ⟨List.pairwise_map.mpr h.increasing, List.pairwise_singleton _ _, ?_⟩
  intro n hn stop hstop
  obtain ⟨l, hl, rfl⟩ := List.mem_map.mp hn
  obtain rfl := List.mem_singleton.mp hstop
  exact (h.within l hl).lt_end

theorem position_le (h : Placed source lexemes) {k : Nat} (hle : i ≤ k)
    (hk : k ≤ lexemes.length) :
    (cursorAt source lexemes i).position ≤ (cursorAt source lexemes k).position := by
  rcases Nat.lt_or_eq_of_le hle with hlt | rfl
  · have hat : ∀ j ≤ lexemes.length, ((ByteLexer.ofLexemes source lexemes).map Mark.position)[j]? =
        some (cursorAt source lexemes j).position := by
      intro j hj
      have hmark : (ByteLexer.ofLexemes source lexemes)[j]? = _ := mark_at hj
      rw [List.getElem?_map, hmark]
      rfl
    obtain ⟨hi', hposition⟩ := List.getElem?_eq_some_iff.mp (hat i (Nat.le_trans hle hk))
    obtain ⟨hk', hposition'⟩ := List.getElem?_eq_some_iff.mp (hat k hk)
    rw [← hposition, ← hposition']
    exact Nat.le_of_lt (List.pairwise_iff_getElem.mp h.pairwise i k hi' hk' hlt)
  · exact Nat.le_refl _

end Placed

namespace IndexParser

theorem failBefore_at {α : Type} (fault : SyntaxFault) (hi : i ≤ lexemes.length) :
    (failBefore (marked source lexemes) fault : IndexParser α) (i + 1) =
      (some (.error ⟨fault, (cursorAt source lexemes i).position⟩) : Option _) := by
  have hget : (get : IndexParser Nat) (i + 1) = (some (.ok (i + 1, i + 1)) : Option _) := rfl
  have hlook : (liftM (marked source lexemes).marks[i + 1 - 1]? : IndexParser Mark) (i + 1) = _ :=
    look_ok (mark_at hi)
  rw [failBefore, bind_ok hget, bind_ok hlook]
  rfl

theorem startsCall_at (hi : i ≤ lexemes.length) : startsCall (marked source lexemes) "count" i =
    (some (.ok (Parser.startsCount (lexemes.drop i), i)) : Option _) := by
  have hnext : (cursorAt source lexemes i).next? = (lexemes.drop i).head?.map Lexeme.token := rfl
  rw [startsCall, bind_ok (peek_at hi)]
  dsimp only
  rw [hnext]
  cases hdrop : lexemes.drop i with
  | nil => rfl
  | cons l rest =>
    have hlt : i < lexemes.length := lt_of_next? (hnext.trans (by rw [hdrop]; rfl))
    have hrest : lexemes.drop (i + 1) = rest := by
      rw [← List.tail_drop, hdrop]
      rfl
    have hafter : (marked source lexemes).marks[i + 1]?.bind Mark.token =
        rest.head?.map Lexeme.token := by
      rw [mark_at hlt, ← hrest]
      rfl
    obtain ⟨token, position⟩ := l
    cases token
    case identifier name =>
      have hget : (get : IndexParser Nat) i = (some (.ok (i, i)) : Option _) := rfl
      show ((get : IndexParser Nat) >>= _) i = _
      rw [bind_ok hget, hafter]
      show (some (.ok (_, i)) : Option (Except SyntaxError (Bool × Nat))) = _
      have hstarts : (Parser.lowercase name == "count" &&
          rest.head?.map Lexeme.token == some .openParen) =
            Parser.startsCount (⟨.identifier name, position⟩ :: rest) := by
        rw [Bool.eq_iff_iff, Parser.startsCount_eq_true_iff]
        cases rest <;> simp [and_comm]
      rw [hstarts]
    all_goals rfl

end IndexParser

namespace Tracks

open IndexParser

/-! ### Conditions -/

theorem operand (i : Nat) :
    Tracks source lexemes i i (IndexParser.operand (marked source lexemes)) Parser.operand := by
  refine lookRight rfl (name? (fun name hname => ?named) fun _ => ?unnamed)
  case named =>
    refine choose (fun _ => Tracks.name fun _ => pure (by omega)) fun _ => ?_
    simp only [Bool.false_eq_true, if_false]
    by_cases hid : Parser.lowercase name = "id"
    · rw [if_pos hid, hid]
      exact bind (argument _) fun _ k hk => pure (by omega)
    by_cases hlabels : Parser.lowercase name = "labels"
    · rw [if_neg hid, if_pos hlabels, hlabels]
      exact bind (argument _) fun _ k hk => pure (by omega)
    rw [if_neg hid, if_neg hlabels]
    split
    case h_1 h => exact absurd h hid
    case h_2 h => exact absurd h hlabels
    case h_3 =>
      intro _
      have hi := Nat.le_of_lt (lt_of_next? hname)
      rw [failBefore_at _ hi]
      exact .failed hi rfl
  case unnamed =>
    exact remaining (bind (literal (Nat.le_refl _)) fun value k hk => pure hk)

theorem comparisonOp (i : Nat) :
    Tracks source lexemes i i (IndexParser.comparisonOp (marked source lexemes))
      Parser.comparisonOp := by
  refine peekRight ?_
  split
  case h_1 hnext => exact acceptAdvance hnext (pure (Nat.le_succ i))
  case h_2 hnext =>
    refine skipLeft (by simp [hnext]) ?_
    exact acceptAdvance hnext (pure (Nat.le_succ i))
  case h_3 hnext =>
    refine skipLeft (by simp [hnext]) (skipLeft (by simp [hnext]) ?_)
    exact acceptAdvance hnext (pure (Nat.le_succ i))
  case h_4 hequals hnotEquals hcontains =>
    exact skipLeft hequals (skipLeft hnotEquals (skipLeft hcontains (fail _)))

theorem comparison (i : Nat) :
    Tracks source lexemes i i (IndexParser.comparison (marked source lexemes))
      Parser.comparison := by
  refine bind (operand i) fun left j hj => bind (comparisonOp j) fun op k hk => ?_
  exact bind (operand k) fun right l hl => pure (by omega)

theorem conjunction {limit : Nat} (hlimit : lexemes.length - i ≤ limit) :
    Tracks source lexemes i i (IndexParser.conjunction (marked source lexemes))
      (Parser.conjunction limit) :=
  loop rfl (fun _ => rfl) (fun k _ => comparison k) (Nat.zero_le i)
    (left_lt_marks source lexemes i) hlimit

/-! ### Columns -/

theorem projection (i : Nat) :
    Tracks source lexemes i i (IndexParser.projection (marked source lexemes))
      Parser.projection := by
  intro hi
  rw [IndexParser.projection, bind_ok (startsCall_at hi)]
  refine lookRight (a := Parser.startsCount (lexemes.drop i)) rfl ?_ hi
  split
  case isTrue hstarts =>
    obtain ⟨name, rest, htokens, -⟩ := Parser.startsCount_eq_true_iff.mp hstarts
    have hnext : (cursorAt source lexemes i).next? = some (.identifier name) := by
      rw [Cursor.next?_eq_head?, Cursor.tokens, cursorAt, htokens]
      rfl
    exact advance hnext (bind (argument _) fun _ k hk => pure (by omega))
  case isFalse => exact bind (operand i) fun _ k hk => pure hk

/-- A column. Tokens stand at boundaries in order, so the text between two of them is there. -/
theorem returnItem (hplaced : Placed source lexemes) (i : Nat) :
    Tracks source lexemes i i (IndexParser.returnItem (marked source lexemes))
      Parser.returnItem := by
  refine peekLeft (lookRight rfl (bind (projection i) fun item k hk => peekLeft ?_))
  intro hi
  have hcut := between?_boundaries (hplaced.boundary i) (hplaced.boundary k)
    (hplaced.position_le hk hi)
  dsimp only [marked]
  rw [bind_ok (look_ok hcut)]
  exact .read hk hi

/-! ### Clauses and queries -/

theorem clause (hplaced : Placed source lexemes) (i : Nat) :
    Tracks source lexemes i (i + 1) (IndexParser.clause (marked source lexemes))
      Parser.clause := by
  refine peekRight ?_
  split
  case h_1 hnext =>
    exact acceptAdvance hnext (bind (pattern _) fun found k hk => pure hk)
  case h_2 hnext =>
    refine skipLeft (by simp [hnext]) (acceptAdvance hnext ?_)
    refine bind (pattern _) fun found k hk => choose (fun _ => remaining ?_) fun _ => pure hk
    exact bind (conjunction (Nat.le_refl _)) fun filter l hl => pure (by omega)
  case h_3 hnext =>
    refine skipLeft (by simp [hnext]) (skipLeft (by simp [hnext]) (acceptAdvance hnext ?_))
    have hitem : ∀ k, 0 ≤ k → Tracks source lexemes k k
        (IndexParser.returnItem (marked source lexemes)) Parser.returnItem :=
      fun k _ => returnItem hplaced k
    refine remaining (bind (separated hitem (Nat.zero_le _) (Nat.le_refl _)) fun items k hk => ?_)
    exact pure hk
  case h_4 hmerge hmatch hreturn =>
    exact skipLeft hmerge (skipLeft hmatch (skipLeft hreturn (fail _)))

theorem moreClauses (hplaced : Placed source lexemes) {limit rounds : Nat}
    (hnone : (cursorAt source lexemes i).next? ≠ none)
    (hsemicolon : (cursorAt source lexemes i).next? ≠ some .semicolon)
    (hrest : ∀ k, i < k → Tracks source lexemes k k
      (IndexParser.clauses (marked source lexemes) rounds) (Parser.clauses limit)) :
    Tracks source lexemes i (i + 1) (IndexParser.clauses (marked source lexemes) (rounds + 1))
      (Parser.clauses (limit + 1)) := by
  rw [IndexParser.clauses, Parser.clauses]
  refine isAtEndLeft (checkLeft (peekRight ?_))
  rw [Option.isNone_eq_false_iff.mpr (Option.isSome_iff_ne_none.mpr hnone),
    decide_eq_false hsemicolon, Bool.or_self, if_neg (by simp)]
  split
  case h_1 hnext => exact absurd hnext hnone
  case h_2 hnext => exact absurd hnext hsemicolon
  case h_3 =>
    refine bind (clause hplaced i) fun first k hk => ?_
    exact bind (hrest k hk) fun rest l hl => pure (by omega)

theorem noClauses {limit rounds : Nat} (hnext : (cursorAt source lexemes i).next? = none ∨
    (cursorAt source lexemes i).next? = some .semicolon) :
    Tracks source lexemes i i (IndexParser.clauses (marked source lexemes) (rounds + 1))
      (Parser.clauses limit) := by
  have hright : Parser.clauses limit (cursorAt source lexemes i) =
      .ok ([], cursorAt source lexemes i) := by
    cases limit with
    | zero => rfl
    | succ limit =>
      show (Parser.peek >>= _) _ = _
      rw [Parser.bind_ok (Parser.peek_ok _)]
      rcases hnext with hnext | hnext <;> rw [hnext] <;> rfl
  rw [IndexParser.clauses]
  refine isAtEndLeft (checkLeft fun hi => ?_)
  rw [hright]
  rcases hnext with hnext | hnext <;> rw [hnext] <;> exact .read (Nat.le_refl i) hi

/-- A clause has a token, so the tokens that are left are enough. -/
theorem clauses (hplaced : Placed source lexemes) {limit rounds : Nat}
    (hrounds : lexemes.length - i < rounds) (hlimit : lexemes.length - i ≤ limit) :
    Tracks source lexemes i i (IndexParser.clauses (marked source lexemes) rounds)
      (Parser.clauses limit) := by
  induction limit generalizing i rounds with
  | zero =>
    obtain ⟨rounds, rfl⟩ := Nat.exists_eq_succ_of_ne_zero (Nat.ne_zero_of_lt hrounds)
    refine noClauses (.inl (Option.eq_none_iff_forall_ne_some.mpr fun token hnext => ?_))
    have hlt := lt_of_next? hnext
    omega
  | succ limit ih =>
    obtain ⟨rounds, rfl⟩ := Nat.exists_eq_succ_of_ne_zero (Nat.ne_zero_of_lt hrounds)
    cases hnext : (cursorAt source lexemes i).next? with
    | none => exact noClauses (.inl hnext)
    | some token =>
      have hlt := lt_of_next? hnext
      by_cases hsemicolon : (cursorAt source lexemes i).next? = some .semicolon
      · exact noClauses (.inr hsemicolon)
      · refine (moreClauses hplaced (by simp [hnext]) hsemicolon fun k hk => ?_).mono
          (Nat.le_succ i)
        exact ih (by omega) (by omega)

/-- Each round reads a token, so one round more than there are tokens is enough. -/
theorem queries (hplaced : Placed source lexemes) {limit rounds : Nat}
    (hrounds : lexemes.length - i < rounds) (hlimit : lexemes.length - i < limit) :
    Tracks source lexemes i i (IndexParser.queries (marked source lexemes) rounds)
      (Parser.queries limit) := by
  induction limit generalizing i rounds with
  | zero => exact absurd hlimit (Nat.not_lt_zero _)
  | succ limit ih =>
    obtain ⟨rounds, rfl⟩ := Nat.exists_eq_succ_of_ne_zero (Nat.ne_zero_of_lt hrounds)
    rw [IndexParser.queries, Parser.queries]
    refine isAtEndLeft (peekRight ?_)
    cases hnext : (cursorAt source lexemes i).next? with
    | none => exact pure (Nat.le_refl i)
    | some token =>
      have hlt := lt_of_next? hnext
      rw [Option.isNone_some, if_neg (by simp)]
      split
      case h_1 h => cases h
      case h_2 h =>
        refine acceptAdvance (hnext.trans h) ((ih ?_ ?_).mono (Nat.le_succ i))
        all_goals omega
      case h_3 hsemicolon =>
        rw [← hnext] at hsemicolon
        have hfirst : Tracks source lexemes i (i + 1)
            (IndexParser.clauses (marked source lexemes) (lexemes.length + 1))
            (Parser.clauses (limit + 1)) := by
          refine moreClauses hplaced (by simp [hnext]) hsemicolon fun k hk => ?_
          exact clauses hplaced (by omega) (by omega)
        rw [length_marks]
        refine skipLeft hsemicolon (bind hfirst fun first k hk => ?_)
        exact bind (ih (by omega) (by omega)) fun rest l hl => pure (by omega)

end Tracks

/-! ### Texts -/

theorem agree_queries (h : lex source = .ok lexemes) :
    Agree source lexemes 0
      (IndexParser.queries (marked source lexemes) (marked source lexemes).marks.length 0)
      (Parser.queries (lexemes.length + 1) ⟨source, lexemes⟩) :=
  Tracks.queries (Placed.of_lex h) (left_lt_marks source lexemes 0) (Nat.lt_succ_self _)
    (Nat.zero_le _)

theorem IndexParser.script_eq (text : String) :
    IndexParser.script text.toList = (some (Script.parse text) : Option _) := by
  rw [IndexParser.script, ByteLexer.lex_eq, Script.parse]
  cases hlex : lex text.toList with
  | error e => rfl
  | ok lexemes =>
    have hagree := agree_queries hlex
    show (IndexParser.queries (marked text.toList lexemes) (marked text.toList lexemes).marks.length
      0 >>= fun s => pure s.1) = (some (Script.ofLexemes text.toList lexemes) : Option _)
    rw [Script.ofLexemes]
    generalize IndexParser.queries (marked text.toList lexemes) _ 0 = x at hagree ⊢
    generalize Parser.queries (lexemes.length + 1) ⟨text.toList, lexemes⟩ = y at hagree ⊢
    cases hagree <;> rfl

theorem Script.parse_error_boundary {text : String} {e : SyntaxError}
    (h : Script.parse text = .error e) : Boundary text.toList e.position := by
  rw [Script.parse] at h
  cases hlex : lex text.toList with
  | error f =>
    rw [hlex] at h
    cases h
    exact Lexer.lexFrom_error [] hlex
  | ok lexemes =>
    rw [hlex] at h
    have hagree := agree_queries hlex
    replace h : Script.ofLexemes text.toList lexemes = .error e := h
    rw [Script.ofLexemes] at h
    generalize IndexParser.queries (marked text.toList lexemes) _ 0 = x at hagree
    generalize Parser.queries (lexemes.length + 1) ⟨text.toList, lexemes⟩ = y at hagree h
    cases hagree with
    | read => cases h
    | failed hi hposition =>
      cases h
      rw [hposition]
      exact (Placed.of_lex hlex).boundary _

/-- The marks of a text stand at characters in order, and the last one, at the end of the text, is
the only one without a token. -/
structure MarksText (text : String) (marks : List Mark) : Prop where
  increasing : (marks.map Mark.position).Pairwise (· < ·)
  valid : ∀ mark ∈ marks, String.Pos.Raw.IsValid text ⟨mark.position⟩
  ends : ∃ before, marks = before ++ [⟨none, text.utf8ByteSize⟩] ∧
    ∀ mark ∈ before, mark.token.isSome = true

theorem MarksText.of_lex {text : String} (h : lex text.toList = .ok lexemes) :
    MarksText text (ByteLexer.ofLexemes text.toList lexemes) where
  increasing := (Placed.of_lex h).pairwise
  valid mark hmark := by
    rw [← boundary_toList_iff]
    rcases List.mem_append.mp hmark with hmark | hmark
    · obtain ⟨l, hl, rfl⟩ := List.mem_map.mp hmark
      exact ((Placed.of_lex h).within l hl).boundary
    · obtain rfl := List.mem_singleton.mp hmark
      exact boundary_byteLength _
  ends := by
    rw [ByteLexer.ofLexemes, byteLength_toList]
    refine ⟨_, rfl, fun mark hmark => ?_⟩
    obtain ⟨l, -, rfl⟩ := List.mem_map.mp hmark
    rfl

/-- Every statement text is read without a miss: the lexer that cuts it at byte offsets finds the
tokens and the end, at characters in order, and the parser that looks them up by their numbers gets
to the script or to an error at a character of the text or at its end, which the store reports. -/
theorem reading_never_misses (text : String) :
    ByteLexer.lex text.toList =
        (some ((lex text.toList).map (ByteLexer.ofLexemes text.toList)) : Option _) ∧
      IndexParser.script text.toList = (some (Script.parse text) : Option _) ∧
      (∀ lexemes, lex text.toList = .ok lexemes →
        MarksText text (ByteLexer.ofLexemes text.toList lexemes)) ∧
      ∀ e, Script.parse text = .error e →
        String.Pos.Raw.IsValid text ⟨e.position⟩ ∧ e.position ≤ text.utf8ByteSize ∧
          ∀ g : Graph, memoryStore.submit text g = (.failed (.statement e), g) := by
  refine ⟨ByteLexer.lex_eq _, IndexParser.script_eq text, fun _ h => MarksText.of_lex h, ?_⟩
  intro e he
  have hboundary := Script.parse_error_boundary he
  refine ⟨boundary_toList_iff.mp hboundary, ?_, fun g => ?_⟩
  · rw [← byteLength_toList]
    exact hboundary.le
  · simp only [memoryStore, Graph.runText, he]

def accentedText : String := "MERGE (é:ü 1)"

theorem lex_accentedText : ∃ lexemes, lex accentedText.toList = .ok lexemes ∧
    lexemes.map Lexeme.position = [0, 6, 7, 9, 10, 13, 14] :=
  exists_ok_of_toOption (by decide +kernel)

theorem parse_accentedText : Script.parse accentedText = .error ⟨.expectedCloseParen, 13⟩ := by
  have hfault : Except.rec (motive := fun _ => Option SyntaxError) some (fun _ => none)
      (Script.parse accentedText) = some ⟨.expectedCloseParen, 13⟩ := by decide +kernel
  cases hparse : Script.parse accentedText with
  | error e =>
    rw [hparse] at hfault
    exact congrArg Except.error (Option.some.inj hfault)
  | ok script =>
    rw [hparse] at hfault
    cases hfault

theorem accentedText_read :
    ∃ lexemes, lex accentedText.toList = .ok lexemes ∧
      (ByteLexer.ofLexemes accentedText.toList lexemes).map Mark.position =
        [0, 6, 7, 9, 10, 13, 14, 15] ∧
      MarksText accentedText (ByteLexer.ofLexemes accentedText.toList lexemes) ∧
      String.Pos.Raw.IsValid accentedText ⟨13⟩ ∧
      memoryStore.submit accentedText .empty =
        (.failed (.statement ⟨.expectedCloseParen, 13⟩), .empty) := by
  obtain ⟨-, -, hmarks, herror⟩ := reading_never_misses accentedText
  obtain ⟨hvalid, -, hreported⟩ := herror _ parse_accentedText
  obtain ⟨lexemes, hlex, hpositions⟩ := lex_accentedText
  refine ⟨lexemes, hlex, ?_, hmarks _ hlex, hvalid, hreported .empty⟩
  rw [ByteLexer.ofLexemes, List.map_append, List.map_map]
  exact congrArg (· ++ _) hpositions

end FieldGraph
