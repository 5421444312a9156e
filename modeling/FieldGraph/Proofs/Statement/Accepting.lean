import FieldGraph.Proofs.Statement.Grammar
import FieldGraph.Proofs.Statement.Reading

/-!
# What the grammar spells is read

The parser reads the tokens of every part of the grammar as what they spell. Where a part has an
optional end, the token after it must not begin that end. No other token after a part matters.
-/
namespace FieldGraph

theorem Value.Spelled.head {ts : List Token} {v : Value} (h : v.Spelled ts) :
    ∃ t us, ts = t :: us ∧ t ≠ .closeBracket ∧ ∀ name, t ≠ .identifier name := by
  cases h <;> exact ⟨_, _, rfl, by simp, by simp⟩

theorem PropertySpelled.head {ts : List Token} {pair : String × Value}
    (h : PropertySpelled ts pair) : ∃ us, ts = .identifier pair.1 :: us := by
  cases h
  exact ⟨_, rfl⟩

theorem RelationshipPattern.Spelled.head {ts : List Token} {r : RelationshipPattern}
    (h : r.Spelled ts) : ∃ t us, ts = t :: us ∧ (t = .leftArrow ∨ t = .dash) := by
  cases h with
  | bare h => cases h <;> exact ⟨_, _, rfl, by simp⟩
  | brackets _ _ h => cases h <;> exact ⟨_, _, rfl, by simp⟩

theorem length_parts_le {α : Type} (sign : Token) (parts : List (List Token × α)) :
    parts.length ≤ ([sign].intercalate (parts.map Prod.fst)).length + 1 := by
  simpa using length_le_intercalate_succ sign (parts.map Prod.fst)

theorem intercalate_cons_eq_cons {α : Type} (sep : α) {t : α} {ts xs : List α}
    (xss : List (List α)) (h : xs = t :: ts) :
    ∃ us, [sep].intercalate (xs :: xss) = t :: us := by
  cases xss <;> simp [h, List.intercalate_cons_cons]

def clauseEnds : List Token :=
  [.semicolon, .keyword .mergeWord, .keyword .matchWord, .keyword .returnWord]

def EndsClause (rest : List Token) : Prop := ∀ t ∈ rest.head?, t ∈ clauseEnds

theorem EndsClause.head?_ne {rest : List Token} (h : EndsClause rest) {t : Token}
    (ht : t ∉ clauseEnds) : rest.head? ≠ some t := fun heq => ht (h t heq)

theorem Parser.startsCount_eq_true_iff {ls : List Lexeme} :
    startsCount ls = true ↔ ∃ name ts,
      ls.map Lexeme.token = .identifier name :: .openParen :: ts ∧ lowercase name = "count" := by
  unfold startsCount
  split
  case h_1 name i j ls => simp
  case h_2 hother =>
    simp only [Bool.false_eq_true, false_iff, not_exists, not_and]
    intro name ts hls _
    obtain ⟨⟨_, i⟩, ms, rfl, rfl, hms⟩ := List.map_eq_cons_iff.mp hls
    obtain ⟨⟨_, j⟩, ls, rfl, rfl, _⟩ := List.map_eq_cons_iff.mp hms
    exact hother name i j ls rfl

theorem Operand.Spelled.not_count {ts : List Token} {o : Operand} (h : o.Spelled ts)
    (rest : List Token) : ¬∃ name us, ts ++ rest = .identifier name :: .openParen :: us ∧
      Parser.lowercase name = "count" := by
  rintro ⟨name, us, hts, hcount⟩
  cases h with
  | literal h =>
    obtain ⟨t, vs, rfl, _, hname⟩ := h.head
    exact hname name (List.cons.inj hts).1
  | property => simp at hts
  | id h | labels h =>
    obtain rfl : _ = name := Token.identifier.inj (List.cons.inj hts).1
    simp [h] at hcount

namespace Reads

variable {ts rest : List Token}

theorem notList {limit : Nat} {v : Value} (ht : (ts ++ rest).head? ≠ some .openBracket)
    (h : Reads Parser.scalar ts rest v) : Reads (Parser.literal limit) ts rest v := by
  cases limit with
  | zero => exact h
  | succ limit => exact pass (accept_other ht) h

/-- A literal is read, with lists in it as deep as there are tokens. -/
theorem literal {v : Value} (h : v.Spelled ts) {limit : Nat} (hlimit : ts.length ≤ limit)
    (rest : List Token) : Reads (Parser.literal limit) ts rest v := by
  induction h generalizing limit rest with
  | minusInteger | minusFloat =>
    exact notList (by simp)
      (bind [_] (accept .dash _) (peek (last (advance _ _) (pure _ _))))
  | @list parts hparts ih =>
    obtain ⟨limit, rfl⟩ : ∃ k, limit = k + 1 := by
      simp only [List.length_cons] at hlimit
      exact ⟨limit - 1, by omega⟩
    simp only [List.length_cons, List.length_append, List.length_nil] at hlimit
    refine bind _ (accept .openBracket _) ?_
    cases parts with
    | nil => exact last (accept .closeBracket _) (pure _ _)
    | cons part parts =>
      have hcount := length_parts_le Token.comma (part :: parts)
      have hread : ∀ other ∈ part :: parts, ∀ rest,
          Reads (Parser.literal limit) other.1 rest other.2 := by
        intro other hother rest
        have := length_le_intercalate Token.comma (List.mem_map_of_mem (f := Prod.fst) hother)
        exact ih other hother (by omega) rest
      obtain ⟨t, us, htokens, hclose, _⟩ := (hparts part List.mem_cons_self).head
      refine pass (accept_other ?_) (bind _ (separated (List.cons_ne_nil part parts)
        (by omega) hread (by simp)) (last (expect .closeBracket _ _) (pure _ _)))
      obtain ⟨vs, hvs⟩ := intercalate_cons_eq_cons .comma (parts.map Prod.fst) htokens
      simpa [hvs] using hclose
  | _ =>
    exact notList (by simp)
      (pass (accept_other (by simp)) (peek (last (advance _ _) (pure _ _))))

theorem tag? (name : Option String) (fault : SyntaxFault) (hrest : rest.head? ≠ some .colon) :
    Reads (Parser.tag? fault) (tagTokens name) rest name := by
  cases name with
  | none => exact last (accept_other hrest) (pure _ _)
  | some name =>
    exact bind [.identifier name] (accept .colon _)
      (last (identifier name fault _) (pure _ _))

theorem name? (name : Option String) (hrest : ∀ name, rest.head? ≠ some (.identifier name)) :
    Reads Parser.identifier? (nameTokens name) rest name := by
  cases name with
  | none => exact identifier?_other hrest
  | some name => exact identifier? name rest

theorem property {pair : String × Value} (h : PropertySpelled ts pair) (rest : List Token) :
    Reads Parser.property ts rest pair := by
  obtain @⟨key, us, value, h⟩ := h
  refine bind (.colon :: us) (identifier key _ _) (bind us (expect .colon _ _) (remaining ?_))
  exact last (literal h (by simp) _) (pure _ _)

/-- Properties between braces. The parser is called only where there are braces. -/
theorem properties {pairs : List (String × Value)}
    (h : Separated .comma PropertySpelled ts pairs) (rest : List Token) :
    Reads Parser.properties (.openBrace :: (ts ++ [.closeBrace])) rest pairs := by
  obtain ⟨parts, hparts, rfl, rfl⟩ := h
  refine bind _ (expect .openBrace _ _) ?_
  cases parts with
  | nil => exact last (accept .closeBrace _) (pure _ _)
  | cons part parts =>
    have hcount := length_parts_le Token.comma (part :: parts)
    obtain ⟨us, hus⟩ := (hparts part List.mem_cons_self).head
    obtain ⟨vs, hvs⟩ := intercalate_cons_eq_cons .comma (parts.map Prod.fst) hus
    refine pass (accept_other ?_) (remaining (bind _ (separated (List.cons_ne_nil part parts) ?_
      (fun part hpart => property (hparts part hpart)) (by simp))
      (last (expect .closeBrace _ _) (pure _ _))))
    · simp [hvs]
    · simp only [List.append_eq, List.length_append]
      omega

theorem nodePattern {n : NodePattern} (h : n.Spelled ts) (rest : List Token) :
    Reads Parser.nodePattern ts rest n := by
  obtain @⟨name, label, us, pairs, h⟩ := h
  have hafter : ∀ t, t ≠ Token.openBrace → t ≠ Token.closeParen →
      (us ++ [Token.closeParen] ++ rest).head? ≠ some t := by
    intro t hbrace hparen
    cases h with
    | nothing => simpa using hparen.symm
    | braces => simpa using hbrace.symm
  refine bind _ (expect .openParen _ _) (bind _ (name? name ?_)
    (bind _ (tag? label _ ?_) (peek ?_)))
  · intro name
    cases label with
    | none => exact hafter _ (by simp) (by simp)
    | some label => simp [tagTokens]
  · exact hafter _ (by simp) (by simp)
  · cases h with
    | nothing => exact pass (pure [] _) (last (expect .closeParen _ _) (pure _ _))
    | braces h =>
      exact bind _ (properties h _) (last (expect .closeParen _ _) (pure _ _))

theorem arrow (arrow : Token) (fault : SyntaxFault) (rest : List Token) :
    Reads (Parser.arrowOrDash arrow fault) [arrow] rest true :=
  last (accept arrow _) (pure _ _)

theorem dash {arrow : Token} (h : arrow ≠ .dash) (fault : SyntaxFault) (rest : List Token) :
    Reads (Parser.arrowOrDash arrow fault) [.dash] rest false :=
  pass (accept_other (by simpa using h.symm))
    (last (expect .dash _ _) (pure _ _))

/-- What is between the two signs of a relationship is read on its own. -/
theorem relationship {start stop : Token} {direction : Direction}
    {detail : Option String × Option String} (h : direction.Spelled start stop)
    (hdetail : ∀ rest, Reads Parser.relationshipDetail ts (stop :: rest) detail)
    (rest : List Token) :
    Reads Parser.relationshipPattern (start :: (ts ++ [stop])) rest
      ⟨detail.1, detail.2, direction⟩ := by
  cases h with
  | outgoing =>
    exact bind _ (dash (by simp) _ _) (bind _ (hdetail _)
      (last (arrow .rightArrow _ _) (pure _ _)))
  | incoming =>
    exact bind _ (arrow .leftArrow _ _) (bind _ (hdetail _)
      (last (dash (by simp) _ _) (pure _ _)))
  | both =>
    exact bind _ (dash (by simp) _ _) (bind _ (hdetail _)
      (last (dash (by simp) _ _) (pure _ _)))

theorem relationshipPattern {r : RelationshipPattern} (h : r.Spelled ts) (rest : List Token) :
    Reads Parser.relationshipPattern ts rest r := by
  cases h with
  | @bare start stop direction h =>
    have hstop : stop ≠ .openBracket := by cases h <;> simp
    have hdetail : ∀ rest, Reads Parser.relationshipDetail [] (stop :: rest) (none, none) :=
      fun rest => pass (accept_other (by simpa using hstop)) (pure (none, none) _)
    exact relationship h hdetail rest
  | @brackets name edgeType start stop direction h =>
    have hdetail : ∀ rest, Reads Parser.relationshipDetail
        (.openBracket :: (nameTokens name ++ (tagTokens edgeType ++ [.closeBracket])))
        (stop :: rest) (name, edgeType) := by
      intro rest
      refine bind (nameTokens name ++ (tagTokens edgeType ++ [.closeBracket]))
        (accept .openBracket _) ?_
      refine bind _ (name? name ?_) (bind _ (tag? edgeType _ ?_)
        (last (expect .closeBracket _ _) (pure _ _)))
      · intro name
        cases edgeType <;> simp [tagTokens]
      · simp
    simpa using relationship h hdetail rest

theorem pattern {p : Pattern} (h : p.Spelled ts) (hdash : rest.head? ≠ some .dash)
    (harrow : rest.head? ≠ some .leftArrow) : Reads Parser.pattern ts rest p := by
  cases h with
  | node h =>
    refine last (nodePattern h _) (peek ?_)
    rw [List.nil_append, if_neg (by simp [hdash, harrow])]
    exact pure _ _
  | @hop ts us vs start stop r hstart hr hstop =>
    obtain ⟨t, ws, rfl, ht⟩ := hr.head
    refine bind _ (nodePattern hstart _) (peek ?_)
    rw [if_pos (by simpa using ht)]
    exact bind _ (relationshipPattern hr _) (last (nodePattern hstop _) (pure _ _))

theorem argument (name : String) (rest : List Token) :
    Reads Parser.argument [.openParen, .identifier name, .closeParen] rest name :=
  bind [.identifier name, .closeParen] (expect .openParen _ _)
    (bind [.closeParen] (identifier name _ _)
      (last (expect .closeParen _ _) (pure _ _)))

theorem operand {o : Operand} (h : o.Spelled ts) (rest : List Token) :
    Reads Parser.operand ts rest o := by
  refine position fun start => ?_
  cases h with
  | literal h =>
    obtain ⟨t, us, rfl, _, hname⟩ := h.head
    exact pass (identifier?_other fun name => by simpa using hname name)
      (remaining (last (literal h (by simp) _) (pure _ _)))
  | property name key =>
    exact bind [.dot, .identifier key] (identifier? name _)
      (bind [.identifier key] (accept .dot _) (last (identifier key _ _) (pure _ _)))
  | @id function h name =>
    refine bind [.openParen, .identifier name, .closeParen] (identifier? function _)
      (pass (accept_other (by simp)) ?_)
    simp only [h]
    exact last (argument name _) (pure _ _)
  | @labels function h name =>
    refine bind [.openParen, .identifier name, .closeParen] (identifier? function _)
      (pass (accept_other (by simp)) ?_)
    simp only [h]
    exact last (argument name _) (pure _ _)

theorem comparison {c : Comparison} (h : c.Spelled ts) (rest : List Token) :
    Reads Parser.comparison ts rest c := by
  obtain ⟨hleft, op, hright⟩ := h
  have hop : ∀ rest, Reads Parser.comparisonOp [op.token] rest op := by
    intro rest
    cases op <;> exact peek (last (advance _ _) (pure _ _))
  exact bind _ (operand hleft _) (bind _ (hop _) (last (operand hright _) (pure _ _)))

theorem conjunction {filter : List Comparison} {limit : Nat} (hne : filter ≠ [])
    (h : Separated (.keyword .andWord) Comparison.Spelled ts filter) (hlimit : ts.length ≤ limit)
    (hrest : rest.head? ≠ some (.keyword .andWord)) :
    Reads (Parser.conjunction limit) ts rest filter := by
  obtain ⟨parts, hparts, rfl, rfl⟩ := h
  have hcount := length_parts_le (.keyword .andWord) parts
  exact loop rfl (fun _ => rfl) (by simpa using hne) (by omega)
    (fun part hpart => comparison (hparts part hpart)) hrest

/-- Looking for a call of `count` reads nothing. -/
theorem startsCount {β : Type} {f : Bool → Parser β} {r : β} {b : Bool}
    (hstarts : ∀ ls : List Lexeme, ls.map Lexeme.token = ts ++ rest → Parser.startsCount ls = b)
    (hf : Reads (f b) ts rest r) :
    Reads ((fun c => .ok (Parser.startsCount c.lexemes, c)) >>= f) ts rest r := by
  intro c hc
  rw [← hf c hc, ← hstarts c.lexemes hc]
  rfl

/-- An operand is a column of its own, since no operand begins with a call of `count`. -/
theorem projection {p : Projection} (h : p.Spelled ts) (rest : List Token) :
    Reads Parser.projection ts rest p := by
  cases h with
  | value h =>
    refine startsCount (b := false) (fun ls hls => ?_) (last (operand h rest) (pure _ _))
    simp only [Bool.eq_false_iff, ne_eq, Parser.startsCount_eq_true_iff, hls]
    exact h.not_count rest
  | @count function h name =>
    refine startsCount (b := true) (fun ls hls => ?_)
      (bind [.openParen, .identifier name, .closeParen] (advance _ _)
        (last (argument name rest) (pure _ _)))
    exact Parser.startsCount_eq_true_iff.mpr ⟨function, _, hls, h⟩

theorem merge {p : Pattern} (h : p.Spelled ts) (hrest : EndsClause rest) :
    Reads Parser.clause (.keyword .mergeWord :: ts) rest (.merge p) := by
  refine peek (bind ts (advance _ _) (last (pattern h ?_ ?_) (pure _ _)))
  · exact hrest.head?_ne (by simp [clauseEnds])
  · exact hrest.head?_ne (by simp [clauseEnds])

theorem find {us : List Token} {p : Pattern} {filter : List Comparison} (hp : p.Spelled ts)
    (hfilter : FilterSpelled us filter) (hrest : EndsClause rest) :
    Reads Parser.clause (.keyword .matchWord :: (ts ++ us)) rest (.find p filter) := by
  refine peek (bind (ts ++ us) (advance _ _) ?_)
  cases hfilter with
  | nothing =>
    rw [List.append_nil]
    refine last (pattern hp ?_ ?_) (last (accept_other ?_) (pure _ _))
    · exact hrest.head?_ne (by simp [clauseEnds])
    · exact hrest.head?_ne (by simp [clauseEnds])
    · exact hrest.head?_ne (by simp [clauseEnds])
  | @conditions us _ hne h =>
    have hand : rest.head? ≠ some (.keyword .andWord) := hrest.head?_ne (by simp [clauseEnds])
    exact bind (.keyword .whereWord :: us) (pattern hp (by simp) (by simp))
      (bind us (accept (.keyword .whereWord) _)
        (remaining (last (conjunction hne h (by simp) hand) (pure _ _))))

end Reads

theorem Clause.Spelled.head {source : List Char} {ls rest : List Lexeme} {c : Clause}
    (h : c.Spelled source ls rest) : ∃ l ms k, ls = l :: ms ∧ l.token = .keyword k ∧
      l.token ∈ clauseEnds := by
  cases h with
  | merge hword | find hword | result hword =>
    exact ⟨_, _, _, rfl, hword, by simp [hword, clauseEnds]⟩

theorem Query.Spelled.head {source : List Char} {ls rest : List Lexeme} {query : Query}
    (h : query.Spelled source ls rest) : ∃ l ms k, ls = l :: ms ∧ l.token = .keyword k ∧
      l.token ∈ clauseEnds := by
  cases h with
  | one h => exact h.head
  | more h _ =>
    obtain ⟨l, ms, k, rfl, hl⟩ := h.head
    exact ⟨l, _, k, rfl, hl⟩

theorem Projection.Spelled.ne_nil {ts : List Token} {p : Projection} (h : p.Spelled ts) :
    ts ≠ [] := by
  cases h with
  | value h =>
    cases h with
    | literal h =>
      obtain ⟨t, us, rfl, _⟩ := h.head
      exact List.cons_ne_nil t us
    | _ => exact List.cons_ne_nil _ _
  | count => exact List.cons_ne_nil _ _

namespace Parser

variable {source : List Char} {ls rest : List Lexeme}

theorem returnItem_of_spelled {item : ReturnItem} (h : item.Spelled source ls rest) :
    returnItem ⟨source, ls ++ rest⟩ = .ok (item, ⟨source, rest⟩) := by
  cases h with
  | intro h =>
    have hstart : Cursor.position ⟨source, ls ++ rest⟩ = Cursor.position ⟨source, ls⟩ := by
      cases ls with
      | nil => exact absurd List.map_nil h.ne_nil
      | cons => rfl
    show (projection ⟨source, ls ++ rest⟩ >>= _) = _
    rw [(Reads.projection h _).run, hstart]
    rfl

theorem separated_of_spelled {items : List ReturnItem} (h : ItemsSpelled source ls rest items)
    {limit : Nat} (hlimit : ls.length ≤ limit) (hrest : ∀ l ∈ rest.head?, l.token ≠ .comma) :
    separated returnItem limit ⟨source, ls ++ rest⟩ = .ok (items, ⟨source, rest⟩) := by
  induction h generalizing limit with
  | one h =>
    cases limit with
    | zero =>
      rw [separated, bind_ok (returnItem_of_spelled h)]
      rfl
    | succ limit =>
      rw [separated, bind_ok (returnItem_of_spelled h), bind_ok (accept_other _ hrest)]
      rfl
  | @more ls ms rest l item items h hcomma _ ih =>
    simp only [List.length_append, List.length_cons] at hlimit
    obtain ⟨limit, rfl⟩ : ∃ k, limit = k + 1 := ⟨limit - 1, by omega⟩
    rw [List.append_assoc, List.cons_append, separated, bind_ok (returnItem_of_spelled h),
      bind_ok (accept_next _ hcomma), if_pos rfl, bind_ok (ih (by omega) hrest)]
    rfl

/-- A clause is read up to where another one or nothing begins. -/
theorem clause_of_spelled {c : Clause} (h : c.Spelled source ls rest)
    (hrest : EndsClause (rest.map Lexeme.token)) :
    clause ⟨source, ls ++ rest⟩ = .ok (c, ⟨source, rest⟩) := by
  cases h with
  | @merge l ls _ p hword h =>
    have hread := Reads.merge h hrest
    rw [← hword, ← List.map_cons] at hread
    exact hread.run source
  | @find l ls ms _ p filter hword hp hfilter =>
    have hread := Reads.find hp hfilter hrest
    rw [← hword, ← List.map_append, ← List.map_cons] at hread
    exact hread.run source
  | @result l ls _ items hword h =>
    have hcomma : ∀ m ∈ rest.head?, m.token ≠ .comma := by
      intro m hm heq
      exact hrest.head?_ne (t := .comma) (by simp [clauseEnds]) (by simp_all)
    have hlimit : ls.length ≤ (ls ++ rest).length := by simp
    have hitems := separated_of_spelled h hlimit hcomma
    have hnext : Cursor.next? ⟨source, l :: ls ++ rest⟩ = some (.keyword .returnWord) := by
      simp [Cursor.next?, hword]
    rw [clause, bind_ok (peek_ok _), hnext]
    show (separated returnItem (ls ++ rest).length ⟨source, ls ++ rest⟩ >>= _) = _
    rw [hitems]
    rfl

theorem clauses_of_spelled {query : Query} (h : query.Spelled source ls rest) {limit : Nat}
    (hlimit : ls.length ≤ limit) (hends : ∀ l ∈ rest.head?, l.token = .semicolon) :
    clauses limit ⟨source, ls ++ rest⟩ = .ok (query, ⟨source, rest⟩) := by
  induction h generalizing limit with
  | @one ls rest c h =>
    obtain ⟨l, ms, k, rfl, hk, _⟩ := h.head
    obtain ⟨limit, rfl⟩ : ∃ n, limit = n + 1 := by
      simp only [List.length_cons] at hlimit
      exact ⟨limit - 1, by omega⟩
    have hrest : EndsClause (rest.map Lexeme.token) := by
      cases rest <;> simp_all [EndsClause, clauseEnds]
    exact clauses_cons (k := k) (by simp [Cursor.next?, hk]) (clause_of_spelled h hrest)
      (clauses_end hends limit)
  | @more ls ms rest c query h others ih =>
    obtain ⟨l, us, k, rfl, hk, _⟩ := h.head
    obtain ⟨m, vs, j, rfl, _, hm⟩ := others.head
    simp only [List.length_append, List.length_cons] at hlimit
    obtain ⟨limit, rfl⟩ : ∃ n, limit = n + 1 := ⟨limit - 1, by omega⟩
    have hrest : EndsClause ((m :: vs ++ rest).map Lexeme.token) := by
      simpa [EndsClause] using hm
    rw [List.append_assoc]
    exact clauses_cons (k := k) (by simp [Cursor.next?, hk]) (clause_of_spelled h hrest)
      (ih (by simp only [List.length_cons]; omega) hends)

theorem queries_of_spelled {script : Script} (h : script.Spelled source ls) {limit : Nat}
    (hlimit : ls.length < limit) :
    queries limit ⟨source, ls⟩ = .ok (script, ⟨source, []⟩) := by
  induction h generalizing limit with
  | nothing =>
    obtain ⟨limit, rfl⟩ : ∃ n, limit = n + 1 := ⟨limit - 1, by omega⟩
    rfl
  | @semicolon l ls script hsign _ ih =>
    simp only [List.length_cons] at hlimit
    obtain ⟨limit, rfl⟩ : ∃ n, limit = n + 1 := ⟨limit - 1, by omega⟩
    have hnext : Cursor.next? ⟨source, l :: ls⟩ = some .semicolon := by
      simp [Cursor.next?, hsign]
    rw [queries, bind_ok (peek_ok _), hnext]
    exact ih (by omega)
  | @query ls rest query script h hends _ ih =>
    obtain ⟨l, ms, k, rfl, hk, _⟩ := h.head
    simp only [List.length_append, List.length_cons] at hlimit
    obtain ⟨limit, rfl⟩ : ∃ n, limit = n + 1 := ⟨limit - 1, by omega⟩
    have hnext : Cursor.next? ⟨source, l :: ms ++ rest⟩ = some (.keyword k) := by
      simp [Cursor.next?, hk]
    have hlong : (l :: ms).length ≤ limit + 1 := by
      rw [List.length_cons]
      omega
    have hquery := clauses_of_spelled h hlong hends
    rw [queries, bind_ok (peek_ok _), hnext]
    dsimp only
    rw [bind_ok hquery, bind_ok (ih (by omega))]
    rfl

end Parser

end FieldGraph
