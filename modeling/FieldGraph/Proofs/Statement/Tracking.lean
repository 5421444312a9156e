import FieldGraph.Proofs.Statement.IndexParser
import FieldGraph.Proofs.Statement.Reading

/-!
# Following the parser by token numbers

The parser that looks tokens up by their numbers goes where the parser goes: from the token with a
number it gets to the token at which the other stops, and it fails where the other fails.
-/
namespace FieldGraph

variable {source : List Char} {lexemes : List Lexeme} {α β : Type} {i j least : Nat} {tok : Token}

def marked (source : List Char) (lexemes : List Lexeme) : Marked :=
  ⟨source, ByteLexer.ofLexemes source lexemes⟩

def cursorAt (source : List Char) (lexemes : List Lexeme) (i : Nat) : Cursor :=
  ⟨source, lexemes.drop i⟩

/-- Both come to the same result in front of a token that is not before the least, or to the same
error at some token. -/
inductive Agree (source : List Char) (lexemes : List Lexeme) (least : Nat) :
    Option (Except SyntaxError (α × Nat)) → Except SyntaxError (α × Cursor) → Prop
  | read {a : α} {i : Nat} (hleast : least ≤ i) (hi : i ≤ lexemes.length) :
      Agree source lexemes least (some (.ok (a, i))) (.ok (a, cursorAt source lexemes i))
  | failed {e : SyntaxError} {i : Nat} (hi : i ≤ lexemes.length)
      (hposition : e.position = (cursorAt source lexemes i).position) :
      Agree source lexemes least (some (.error e)) (.error e)

/-- From the token with a number, one parser goes where the other goes. -/
def Tracks (source : List Char) (lexemes : List Lexeme) (i least : Nat) (m : IndexParser α)
    (p : Parser α) : Prop :=
  i ≤ lexemes.length → Agree source lexemes least (m i) (p (cursorAt source lexemes i))

theorem mark_at (hi : i ≤ lexemes.length) : (marked source lexemes).marks[i]? =
    some ⟨(cursorAt source lexemes i).next?, (cursorAt source lexemes i).position⟩ := by
  rw [marked, ByteLexer.ofLexemes]
  rcases Nat.lt_or_eq_of_le hi with hlt | rfl
  · have hdrop := List.drop_eq_getElem_cons hlt
    rw [List.getElem?_append_left (by rwa [List.length_map]), List.getElem?_map,
      List.getElem?_eq_getElem hlt, cursorAt, hdrop]
    rfl
  · rw [List.getElem?_append_right (by rw [List.length_map]), List.length_map, Nat.sub_self,
      cursorAt, List.drop_length]
    rfl

theorem length_marks (source : List Char) (lexemes : List Lexeme) :
    (marked source lexemes).marks.length = lexemes.length + 1 := by
  rw [marked, ByteLexer.ofLexemes, List.length_append, List.length_map]
  rfl

/-- The end is marked too, so there are more marks than tokens that are left. -/
theorem left_lt_marks (source : List Char) (lexemes : List Lexeme) (i : Nat) :
    lexemes.length - i < (marked source lexemes).marks.length := by
  rw [length_marks]
  exact Nat.lt_succ_of_le (Nat.sub_le _ _)

theorem advance_cursorAt (source : List Char) (lexemes : List Lexeme) (i : Nat) :
    (cursorAt source lexemes i).advance = cursorAt source lexemes (i + 1) := by
  rw [cursorAt, Cursor.advance, List.tail_drop]
  rfl

theorem lt_of_next? (h : (cursorAt source lexemes i).next? = some tok) : i < lexemes.length := by
  rw [cursorAt, Cursor.next?] at h
  by_contra hge
  rw [List.drop_eq_nil_of_le (Nat.not_lt.mp hge)] at h
  cases h

theorem Parser.bind_error {p : Parser α} {f : α → Parser β} {c : Cursor} {e : SyntaxError}
    (h : p c = .error e) : (p >>= f) c = .error e := by
  show (p c >>= fun s => f s.1 s.2) = _
  rw [h]
  rfl

namespace IndexParser

theorem bind_ok {m : IndexParser α} {f : α → IndexParser β} {a : α}
    (h : m i = (some (.ok (a, j)) : Option _)) : (m >>= f) i = f a j := by
  show m i >>= _ = _
  rw [h]
  rfl

theorem bind_error {m : IndexParser α} {f : α → IndexParser β} {e : SyntaxError}
    (h : m i = (some (.error e) : Option _)) : (m >>= f) i = (some (.error e) : Option _) := by
  show m i >>= _ = _
  rw [h]
  rfl

theorem look_ok {found : Option α} {a : α} (h : found = some a) :
    (liftM found : IndexParser α) i = (some (.ok (a, i)) : Option _) := by
  rw [h]
  rfl

theorem peek_at (hi : i ≤ lexemes.length) : peek (marked source lexemes) i =
    (some (.ok (⟨(cursorAt source lexemes i).next?, (cursorAt source lexemes i).position⟩, i)) :
      Option _) :=
  look_ok (mark_at hi)

theorem isAtEnd_at (hi : i ≤ lexemes.length) : isAtEnd (marked source lexemes) i =
    (some (.ok ((cursorAt source lexemes i).next?.isNone, i)) : Option _) :=
  bind_ok (peek_at hi)

theorem check_at (tok : Token) (hi : i ≤ lexemes.length) : check (marked source lexemes) tok i =
    (some (.ok (decide ((cursorAt source lexemes i).next? = some tok), i)) : Option _) :=
  bind_ok (peek_at hi)

theorem advance_at (h : (cursorAt source lexemes i).next? = some tok) :
    advance (marked source lexemes) i = (some (.ok ((), i + 1)) : Option _) := by
  have hi := Nat.le_of_lt (lt_of_next? h)
  rw [advance, bind_ok (isAtEnd_at hi), h]
  show (previous (marked source lexemes) >>= fun _ => pure ()) (i + 1) = _
  have hprevious : previous (marked source lexemes) (i + 1) = _ := look_ok (mark_at hi)
  rw [bind_ok hprevious]
  rfl

theorem accept_next (h : (cursorAt source lexemes i).next? = some tok) :
    accept (marked source lexemes) tok i = (some (.ok (true, i + 1)) : Option _) := by
  rw [accept, bind_ok (check_at tok (Nat.le_of_lt (lt_of_next? h))), h, decide_eq_true rfl,
    if_pos rfl, bind_ok (advance_at h)]
  rfl

theorem accept_other (h : (cursorAt source lexemes i).next? ≠ some tok) (hi : i ≤ lexemes.length) :
    accept (marked source lexemes) tok i = (some (.ok (false, i)) : Option _) := by
  rw [accept, bind_ok (check_at tok hi), decide_eq_false h]
  rfl

end IndexParser

theorem Parser.accept_at (h : (cursorAt source lexemes i).next? = some tok) :
    Parser.accept tok (cursorAt source lexemes i) =
      .ok (true, cursorAt source lexemes (i + 1)) := by
  rw [Parser.accept, if_pos h, advance_cursorAt]

namespace Tracks

open IndexParser

variable {m : IndexParser α} {p : Parser α} {f : α → IndexParser β} {g : α → Parser β}

theorem pure {a : α} (h : least ≤ i) : Tracks source lexemes i least (pure a) (pure a) :=
  fun hi => .read h hi

theorem fail (fault : SyntaxFault) :
    Tracks source lexemes i least (IndexParser.fail (marked source lexemes) fault : IndexParser α)
      (Parser.fail fault) := by
  intro hi
  rw [IndexParser.fail, bind_ok (peek_at hi)]
  exact .failed hi rfl

theorem mono (h : Tracks source lexemes i j m p) (hle : least ≤ j) :
    Tracks source lexemes i least m p := by
  intro hi
  have hagree := h hi
  generalize m i = x at hagree ⊢
  generalize p (cursorAt source lexemes i) = y at hagree ⊢
  cases hagree with
  | read hleast hk => exact .read (Nat.le_trans hle hleast) hk
  | failed hk hposition => exact .failed hk hposition

theorem bind (hm : Tracks source lexemes i j m p)
    (hf : ∀ a k, j ≤ k → Tracks source lexemes k least (f a) (g a)) :
    Tracks source lexemes i least (m >>= f) (p >>= g) := by
  intro hi
  have hagree := hm hi
  generalize hx : m i = x at hagree
  generalize hy : p (cursorAt source lexemes i) = y at hagree
  cases hagree with
  | read hleast hk =>
    rw [bind_ok hx, Parser.bind_ok hy]
    exact hf _ _ hleast hk
  | failed hk hposition =>
    rw [bind_error hx, Parser.bind_error hy]
    exact .failed hk hposition

theorem failed (fault : SyntaxFault) {f : α → IndexParser β} {g : α → Parser β} :
    Tracks source lexemes i least (IndexParser.fail (marked source lexemes) fault >>= f)
      (Parser.fail fault >>= g) :=
  bind (j := lexemes.length + 1) (fail fault) fun _ _ hk hle => absurd hle (Nat.not_le_of_gt hk)

/-- What follows a look at the next token depends on that token only. -/
theorem peekLeft {f : Mark → IndexParser β} {p : Parser β}
    (h : Tracks source lexemes i least
      (f ⟨(cursorAt source lexemes i).next?, (cursorAt source lexemes i).position⟩) p) :
    Tracks source lexemes i least (peek (marked source lexemes) >>= f) p := by
  intro hi
  rw [bind_ok (peek_at hi)]
  exact h hi

theorem isAtEndLeft {f : Bool → IndexParser β} {p : Parser β}
    (h : Tracks source lexemes i least (f (cursorAt source lexemes i).next?.isNone) p) :
    Tracks source lexemes i least (isAtEnd (marked source lexemes) >>= f) p := by
  intro hi
  rw [bind_ok (isAtEnd_at hi)]
  exact h hi

theorem checkLeft {f : Bool → IndexParser β} {p : Parser β}
    (h : Tracks source lexemes i least
      (f (decide ((cursorAt source lexemes i).next? = some tok))) p) :
    Tracks source lexemes i least (check (marked source lexemes) tok >>= f) p := by
  intro hi
  rw [bind_ok (check_at tok hi)]
  exact h hi

/-- What only looks at a place does not move the parser. -/
theorem lookRight {q : Parser α} {a : α} {m : IndexParser β}
    (hq : q (cursorAt source lexemes i) = .ok (a, cursorAt source lexemes i))
    (h : Tracks source lexemes i least m (g a)) : Tracks source lexemes i least m (q >>= g) := by
  intro hi
  rw [Parser.bind_ok hq]
  exact h hi

theorem peekRight {g : Option Token → Parser β} {m : IndexParser β}
    (h : Tracks source lexemes i least m (g (cursorAt source lexemes i).next?)) :
    Tracks source lexemes i least m (Parser.peek >>= g) :=
  lookRight rfl h

theorem remaining {g : Nat → Parser β} {m : IndexParser β}
    (h : Tracks source lexemes i least m (g (lexemes.length - i))) :
    Tracks source lexemes i least m (Parser.remaining >>= g) := by
  refine lookRight rfl ?_
  rwa [cursorAt, List.length_drop]

theorem advance {f : Unit → IndexParser β} {g : Unit → Parser β}
    (hnext : (cursorAt source lexemes i).next? = some tok)
    (h : Tracks source lexemes (i + 1) least (f ()) (g ())) :
    Tracks source lexemes i least (IndexParser.advance (marked source lexemes) >>= f)
      (Parser.advance >>= g) := by
  intro hi
  have hright : Parser.advance (cursorAt source lexemes i) =
      .ok ((), cursorAt source lexemes (i + 1)) := by
    rw [Parser.advance, advance_cursorAt]
  rw [bind_ok (advance_at hnext), Parser.bind_ok hright]
  exact h (lt_of_next? hnext)

theorem choose {f : Bool → IndexParser β} {g : Bool → Parser β}
    (hyes : (cursorAt source lexemes i).next? = some tok →
      Tracks source lexemes (i + 1) least (f true) (g true))
    (hno : (cursorAt source lexemes i).next? ≠ some tok →
      Tracks source lexemes i least (f false) (g false)) :
    Tracks source lexemes i least (accept (marked source lexemes) tok >>= f)
      (Parser.accept tok >>= g) := by
  intro hi
  by_cases hnext : (cursorAt source lexemes i).next? = some tok
  · rw [bind_ok (accept_next hnext), Parser.bind_ok (Parser.accept_at hnext)]
    exact hyes hnext (lt_of_next? hnext)
  · have hright : Parser.accept tok (cursorAt source lexemes i) = .ok (false, _) := if_neg hnext
    rw [bind_ok (accept_other hnext hi), Parser.bind_ok hright]
    exact hno hnext hi

/-- A token that does not come next, asked for by one parser only. -/
theorem skipLeft {f : Bool → IndexParser β} {p : Parser β}
    (hnext : (cursorAt source lexemes i).next? ≠ some tok)
    (h : Tracks source lexemes i least (f false) p) :
    Tracks source lexemes i least (accept (marked source lexemes) tok >>= f) p := by
  intro hi
  rw [bind_ok (accept_other hnext hi)]
  exact h hi

theorem skipRight {g : Bool → Parser β} {m : IndexParser β}
    (hnext : (cursorAt source lexemes i).next? ≠ some tok)
    (h : Tracks source lexemes i least m (g false)) :
    Tracks source lexemes i least m (Parser.accept tok >>= g) :=
  lookRight (if_neg hnext) h

/-- A token that comes next, which one parser asks for and the other passes over. -/
theorem acceptAdvance {f : Bool → IndexParser β} {g : Unit → Parser β}
    (hnext : (cursorAt source lexemes i).next? = some tok)
    (h : Tracks source lexemes (i + 1) least (f true) (g ())) :
    Tracks source lexemes i least (accept (marked source lexemes) tok >>= f)
      (Parser.advance >>= g) := by
  intro hi
  have hright : Parser.advance (cursorAt source lexemes i) =
      .ok ((), cursorAt source lexemes (i + 1)) := by
    rw [Parser.advance, advance_cursorAt]
  rw [bind_ok (accept_next hnext), Parser.bind_ok hright]
  exact h (lt_of_next? hnext)

theorem advanceAccept {f : Unit → IndexParser β} {g : Bool → Parser β}
    (hnext : (cursorAt source lexemes i).next? = some tok)
    (h : Tracks source lexemes (i + 1) least (f ()) (g true)) :
    Tracks source lexemes i least (IndexParser.advance (marked source lexemes) >>= f)
      (Parser.accept tok >>= g) := by
  intro hi
  rw [bind_ok (advance_at hnext), Parser.bind_ok (Parser.accept_at hnext)]
  exact h (lt_of_next? hnext)

theorem expect {fault : SyntaxFault} {f : Unit → IndexParser β} {g : Unit → Parser β}
    (h : Tracks source lexemes (i + 1) least (f ()) (g ())) :
    Tracks source lexemes i least (IndexParser.expect (marked source lexemes) tok fault >>= f)
      (Parser.expect tok fault >>= g) := by
  rw [IndexParser.expect, Parser.expect, bind_assoc, bind_assoc]
  refine checkLeft ?_
  by_cases hnext : (cursorAt source lexemes i).next? = some tok
  · rw [decide_eq_true hnext]
    exact advanceAccept hnext h
  · rw [decide_eq_false hnext]
    exact skipRight hnext (failed fault)

theorem name? {f : Option String → IndexParser β} {g : Option String → Parser β}
    (hsome : ∀ name, (cursorAt source lexemes i).next? = some (.identifier name) →
      Tracks source lexemes (i + 1) least (f (some name)) (g (some name)))
    (hnone : (∀ name, (cursorAt source lexemes i).next? ≠ some (.identifier name)) →
      Tracks source lexemes i least (f none) (g none)) :
    Tracks source lexemes i least (IndexParser.identifier? (marked source lexemes) >>= f)
      (Parser.identifier? >>= g) := by
  rw [IndexParser.identifier?, bind_assoc]
  refine peekLeft ?_
  dsimp only
  split
  case h_1 name hnext =>
    intro hi
    have hright : Parser.identifier? (cursorAt source lexemes i) =
        .ok (some name, cursorAt source lexemes (i + 1)) := by
      rw [Parser.identifier?, hnext, ← advance_cursorAt]
    rw [bind_assoc, bind_ok (advance_at hnext), Parser.bind_ok hright]
    exact hsome name hnext (lt_of_next? hnext)
  case h_2 hother =>
    refine lookRight ?_ (hnone hother)
    rw [Parser.identifier?]
    split
    case h_1 name hnext => exact absurd hnext (hother name)
    case h_2 => rfl

theorem name {fault : SyntaxFault} {f : String → IndexParser β} {g : String → Parser β}
    (h : ∀ name, Tracks source lexemes (i + 1) least (f name) (g name)) :
    Tracks source lexemes i least (IndexParser.identifier (marked source lexemes) fault >>= f)
      (Parser.identifier fault >>= g) := by
  rw [IndexParser.identifier, Parser.identifier, bind_assoc, bind_assoc]
  exact name? (fun name _ => h name) fun _ => failed fault

/-- A loop goes on as long as a sign comes next, for which the tokens that are left are enough. -/
theorem loop {item : IndexParser α} {p : Parser α} {q : Nat → Parser (List α)} {sign : Token}
    {start limit rounds : Nat} (hzero : q 0 = do return [← p])
    (hsucc : ∀ n, q (n + 1) = do
      let first ← p
      if ← Parser.accept sign then
        let rest ← q n
        return first :: rest
      else
        return [first])
    (hitem : ∀ k, start ≤ k → Tracks source lexemes k k item p) (hstart : start ≤ i)
    (hrounds : lexemes.length - i < rounds) (hlimit : lexemes.length - i ≤ limit) :
    Tracks source lexemes i i (IndexParser.loop (marked source lexemes) sign item rounds)
      (q limit) := by
  induction limit generalizing i rounds with
  | zero =>
    obtain ⟨rounds, rfl⟩ := Nat.exists_eq_succ_of_ne_zero (Nat.ne_zero_of_lt hrounds)
    rw [IndexParser.loop, hzero]
    refine bind (hitem i hstart) fun first k hk => skipLeft ?_ (pure hk)
    intro hnext
    have hlt := lt_of_next? hnext
    omega
  | succ limit ih =>
    obtain ⟨rounds, rfl⟩ := Nat.exists_eq_succ_of_ne_zero (Nat.ne_zero_of_lt hrounds)
    rw [IndexParser.loop, hsucc]
    refine bind (hitem i hstart) fun first k hk => choose (fun hnext => ?_) fun _ => pure hk
    have hlt := lt_of_next? hnext
    refine bind (ih ?_ ?_ ?_) fun rest j hj => pure ?_
    all_goals omega

theorem separated {item : IndexParser α} {p : Parser α} {start limit : Nat}
    (hitem : ∀ k, start ≤ k → Tracks source lexemes k k item p) (hstart : start ≤ i)
    (hlimit : lexemes.length - i ≤ limit) :
    Tracks source lexemes i i (IndexParser.separated (marked source lexemes) item)
      (Parser.separated p limit) :=
  loop rfl (fun _ => rfl) hitem hstart (left_lt_marks source lexemes i) hlimit

/-! ### Literals and patterns -/

theorem scalar (hlist : (cursorAt source lexemes i).next? ≠ some .openBracket) (rounds : Nat) :
    Tracks source lexemes i i (IndexParser.nested (marked source lexemes) (rounds + 1))
      Parser.scalar := by
  rw [IndexParser.nested, Parser.scalar]
  refine choose (fun _ => checkLeft ?negative) fun _ => checkLeft ?positive
  case negative =>
    refine peekLeft (peekRight ?_)
    generalize hnext : (cursorAt source lexemes (i + 1)).next? = next
    obtain _ | token := next
    · exact fail _
    cases token
    case integer n => exact advance hnext (pure (by omega))
    case float x => exact advance hnext (pure (by omega))
    all_goals exact fail _
  case positive =>
    rw [decide_eq_false hlist]
    refine peekLeft (peekRight ?_)
    generalize hnext : (cursorAt source lexemes i).next? = next at hlist ⊢
    obtain _ | token := next
    · exact fail _
    cases token
    case integer n => exact advance hnext (pure (Nat.le_succ i))
    case float x => exact advance hnext (pure (Nat.le_succ i))
    case string s => exact advance hnext (pure (Nat.le_succ i))
    case keyword word =>
      cases word
      case trueWord => exact advance hnext (pure (Nat.le_succ i))
      case falseWord => exact advance hnext (pure (Nat.le_succ i))
      case nullWord => exact advance hnext (pure (Nat.le_succ i))
      all_goals exact fail _
    case openBracket => exact absurd rfl hlist
    all_goals exact fail _

theorem enclosed (close : Token) (fault : SyntaxFault) (f : List α → β)
    {items : IndexParser (List α)} {p : Parser (List α)} (hle : least ≤ i)
    (hitems : Tracks source lexemes i i items p) :
    Tracks source lexemes i least
      (do
        let empty ← check (marked source lexemes) close
        let found ← if empty then Pure.pure [] else items
        IndexParser.expect (marked source lexemes) close fault
        return f found)
      (do
        if ← Parser.accept close then return f []
        else
          let found ← p
          Parser.expect close fault
          return f found) := by
  refine checkLeft ?_
  by_cases hnext : (cursorAt source lexemes i).next? = some close
  · rw [decide_eq_true hnext]
    show Tracks source lexemes i least
      (IndexParser.expect (marked source lexemes) close fault >>= fun _ => Pure.pure (f [])) _
    rw [IndexParser.expect, bind_assoc]
    refine checkLeft ?_
    rw [decide_eq_true hnext]
    exact advanceAccept hnext (pure (Nat.le_succ_of_le hle))
  · rw [decide_eq_false hnext]
    refine skipRight hnext (bind hitems fun found k hk => expect (pure (by omega)))

/-- Lists are nested less deep than there are tokens. -/
theorem nested {limit rounds : Nat} (hrounds : lexemes.length - i < rounds)
    (hlimit : lexemes.length - i ≤ limit) :
    Tracks source lexemes i i (IndexParser.nested (marked source lexemes) rounds)
      (Parser.literal limit) := by
  induction limit generalizing i rounds with
  | zero =>
    obtain ⟨rounds, rfl⟩ := Nat.exists_eq_succ_of_ne_zero (Nat.ne_zero_of_lt hrounds)
    refine scalar (fun hnext => ?_) rounds
    have hlt := lt_of_next? hnext
    omega
  | succ limit ih =>
    obtain ⟨rounds, rfl⟩ := Nat.exists_eq_succ_of_ne_zero (Nat.ne_zero_of_lt hrounds)
    by_cases hlist : (cursorAt source lexemes i).next? = some .openBracket
    · have hlt := lt_of_next? hlist
      rw [IndexParser.nested]
      refine skipLeft (by simp [hlist]) (checkLeft ?_)
      rw [decide_eq_true hlist]
      refine advanceAccept hlist (enclosed _ _ _ (Nat.le_succ i) ?_)
      have hitem : ∀ k, i + 1 ≤ k → Tracks source lexemes k k
          (IndexParser.nested (marked source lexemes) rounds) (Parser.literal limit) :=
        fun k hk => ih (by omega) (by omega)
      exact separated hitem (Nat.le_refl _) (by omega)
    · exact skipRight hlist (scalar hlist rounds)

theorem literal {limit : Nat} (hlimit : lexemes.length - i ≤ limit) :
    Tracks source lexemes i i (IndexParser.literal (marked source lexemes))
      (Parser.literal limit) :=
  nested (left_lt_marks source lexemes i) hlimit

theorem property (i : Nat) :
    Tracks source lexemes i i (IndexParser.property (marked source lexemes)) Parser.property := by
  refine name fun key => expect (remaining (bind (literal (Nat.le_refl _)) fun value k hk => ?_))
  exact pure (by omega)

theorem properties (i : Nat) :
    Tracks source lexemes i i (IndexParser.properties (marked source lexemes))
      Parser.properties := by
  refine expect ?_
  have hitems : Tracks source lexemes (i + 1) (i + 1)
      (IndexParser.separated (marked source lexemes) (IndexParser.property (marked source lexemes)))
      (do Parser.separated Parser.property (← Parser.remaining)) :=
    remaining (separated (fun k _ => property k) (Nat.zero_le _) (Nat.le_refl _))
  have hall := enclosed .closeBrace .expectedCloseBrace id (Nat.le_succ i) hitems
  simp only [bind_assoc] at hall
  exact hall

theorem tag? (fault : SyntaxFault) (i : Nat) :
    Tracks source lexemes i i (IndexParser.tag? (marked source lexemes) fault)
      (Parser.tag? fault) :=
  choose (fun _ => name fun _ => pure (by omega)) fun _ => pure (Nat.le_refl i)

theorem nodeEnd (name : Option String) (hle : least ≤ i) :
    Tracks source lexemes i least
      (do
        let label ← IndexParser.tag? (marked source lexemes) .expectedLabel
        let pairs ← if ← check (marked source lexemes) .openBrace then
            IndexParser.properties (marked source lexemes)
          else Pure.pure []
        IndexParser.expect (marked source lexemes) .closeParen .expectedCloseParen
        return ⟨name, label, pairs⟩)
      (do
        let label ← Parser.tag? .expectedLabel
        let pairs ← if (← Parser.peek) = some .openBrace then Parser.properties else Pure.pure []
        Parser.expect .closeParen .expectedCloseParen
        return (⟨name, label, pairs⟩ : NodePattern)) := by
  refine bind (tag? _ i) fun label j hj => checkLeft (peekRight ?_)
  simp only [decide_eq_true_eq]
  split
  case isTrue => exact bind (properties j) fun pairs k hk => expect (pure (by omega))
  case isFalse => exact bind (pure (Nat.le_refl j)) fun pairs k hk => expect (pure (by omega))

theorem nodePattern (i : Nat) :
    Tracks source lexemes i i (IndexParser.nodePattern (marked source lexemes))
      Parser.nodePattern := by
  refine expect (name? (fun name _ => ?named) fun _ => ?unnamed)
  case named => exact nodeEnd (some name) (by omega)
  case unnamed => exact nodeEnd none (by omega)

theorem relationshipDetail (i : Nat) :
    Tracks source lexemes i i (IndexParser.relationshipDetail (marked source lexemes))
      Parser.relationshipDetail := by
  refine choose (fun _ => name? (fun name _ => ?named) fun _ => ?unnamed) fun _ =>
    pure (Nat.le_refl i)
  case named => exact bind (tag? _ _) fun edgeType j hj => expect (pure (by omega))
  case unnamed => exact bind (tag? _ _) fun edgeType j hj => expect (pure (by omega))

theorem arrowOrDash (arrow : Token) (fault : SyntaxFault) (i : Nat) :
    Tracks source lexemes i i (IndexParser.arrowOrDash (marked source lexemes) arrow fault)
      (Parser.arrowOrDash arrow fault) :=
  choose (fun _ => pure (Nat.le_succ i)) fun _ => expect (pure (Nat.le_succ i))

theorem relationshipPattern (i : Nat) :
    Tracks source lexemes i i (IndexParser.relationshipPattern (marked source lexemes))
      Parser.relationshipPattern := by
  refine bind (arrowOrDash _ _ i) fun incoming j hj => ?_
  refine bind (relationshipDetail j) fun detail k hk => ?_
  refine bind (arrowOrDash _ _ k) fun outgoing l hl => ?_
  cases incoming with
  | true =>
    cases outgoing with
    | true => exact fail _
    | false => exact pure (by omega)
  | false =>
    cases outgoing with
    | true => exact pure (by omega)
    | false => exact pure (by omega)

theorem pattern (i : Nat) :
    Tracks source lexemes i i (IndexParser.pattern (marked source lexemes)) Parser.pattern := by
  refine bind (nodePattern i) fun start j hj => ?_
  refine checkLeft (checkLeft (peekRight ?_))
  simp only [Bool.or_eq_true, decide_eq_true_eq]
  split
  case isTrue =>
    refine bind (relationshipPattern j) fun relationship k hk => ?_
    exact bind (nodePattern k) fun stop l hl => pure (by omega)
  case isFalse => exact pure hj

theorem argument (i : Nat) :
    Tracks source lexemes i i (IndexParser.argument (marked source lexemes)) Parser.argument :=
  expect (name fun _ => expect (pure (by omega)))

end Tracks

end FieldGraph
