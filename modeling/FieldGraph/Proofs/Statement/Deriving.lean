import FieldGraph.Proofs.Statement.Accepting

/-!
# What is read is spelled by the grammar

Where the parser succeeds, the tokens it took spell what it returns. There is a rule for each way in
which parsers are put together, which says what is left to spell after the tokens taken so far.
-/
namespace FieldGraph

/-- From one place to another the parser took the given tokens of a text. -/
def Cursor.Took (c : Cursor) (ls : List Lexeme) (d : Cursor) : Prop :=
  c = ⟨d.source, ls ++ d.lexemes⟩

/-- Where the parser succeeds at a place with the given token, the tokens it takes spell its
result. -/
def TakesFrom {α : Type} (next : Option Token) (p : Parser α)
    (Spelled : List Token → α → Prop) : Prop :=
  ∀ ⦃c a d⦄, c.next? = next → p c = .ok (a, d) →
    ∃ ls, c.Took ls d ∧ Spelled (ls.map Lexeme.token) a

def Takes {α : Type} (p : Parser α) (Spelled : List Token → α → Prop) : Prop :=
  ∀ ⦃c a d⦄, p c = .ok (a, d) → ∃ ls, c.Took ls d ∧ Spelled (ls.map Lexeme.token) a

theorem Cursor.Took.append {c d e : Cursor} {ls ms : List Lexeme} (h : c.Took ls d)
    (hrest : d.Took ms e) : c.Took (ls ++ ms) e := by
  rw [Took] at h hrest ⊢
  rw [h, hrest, List.append_assoc]

theorem Cursor.took_advance {c : Cursor} {t : Token} (h : c.next? = some t) :
    ∃ l : Lexeme, l.token = t ∧ c.Took [l] c.advance := by
  obtain ⟨source, _ | ⟨l, ls⟩⟩ := c
  · cases h
  · exact ⟨l, Option.some.inj h, rfl⟩

theorem Parser.bind_eq_ok {α β : Type} {p : Parser α} {f : α → Parser β} {c e : Cursor} {b : β} :
    (p >>= f) c = .ok (b, e) ↔ ∃ a d, p c = .ok (a, d) ∧ f a d = .ok (b, e) := by
  show (p c >>= fun s => f s.1 s.2) = _ ↔ _
  cases p c with
  | error e => simp [Bind.bind, Except.bind]
  | ok s =>
    simp [Bind.bind, Except.bind, Prod.ext_iff, and_assoc]

/-- What comes after a look at the next token depends on that token only. -/
theorem Parser.peek_bind_eq_ok {β : Type} {f : Option Token → Parser β} {c d : Cursor} {b : β} :
    (peek >>= f) c = .ok (b, d) ↔ ∃ q, f c.next? = q ∧ q c = .ok (b, d) := by
  rw [bind_ok (peek_ok c)]
  simp

namespace Takes

variable {α β : Type} {p : Parser α} {S : List Token → α → Prop} {T : List Token → β → Prop}

theorem pure {b : β} (h : T [] b) : Takes (pure b) T := by
  intro c _ d hrun
  cases hrun
  exact ⟨[], rfl, h⟩

theorem fail (fault : SyntaxFault) : Takes (Parser.fail fault) T := by
  intro c b d hrun
  cases hrun

theorem failAt (fault : SyntaxFault) (n : Nat) : Takes (Parser.failAt fault n) T := by
  intro c b d hrun
  cases hrun

theorem bind {f : α → Parser β} (hp : Takes p S)
    (hf : ∀ ts a, S ts a → Takes (f a) fun us b => T (ts ++ us) b) : Takes (p >>= f) T := by
  intro c b e hrun
  obtain ⟨a, d, hfirst, hrest⟩ := Parser.bind_eq_ok.mp hrun
  obtain ⟨ls, hls, ha⟩ := hp hfirst
  obtain ⟨ms, hms, hb⟩ := hf _ a ha hrest
  exact ⟨ls ++ ms, hls.append hms, by rwa [List.map_append]⟩

theorem last {g : α → β} (hp : Takes p S) (h : ∀ ts a, S ts a → T ts (g a)) :
    Takes (p >>= fun a => Pure.pure (g a)) T :=
  bind hp fun ts a ha => pure (by rw [List.append_nil]; exact h ts a ha)

theorem peek {f : Option Token → Parser β} (h : ∀ next, TakesFrom next (f next) T) :
    Takes (Parser.peek >>= f) T := by
  intro c b d hrun
  obtain ⟨_, _, hpeek, hrest⟩ := Parser.bind_eq_ok.mp hrun
  cases hpeek
  exact h _ rfl hrest

/-- What is only looked up takes nothing. -/
theorem look {q : Parser α} {f : α → Parser β} (hlook : ∀ c, ∃ a, q c = .ok (a, c))
    (h : ∀ a, Takes (f a) T) : Takes (q >>= f) T := by
  intro c b d hrun
  obtain ⟨a, _, hq, hrest⟩ := Parser.bind_eq_ok.mp hrun
  obtain ⟨_, hsame⟩ := hlook c
  rw [hsame] at hq
  cases hq
  exact h _ hrest

/-- A number that is only a bound has no part in what is read. -/
theorem remaining {f : Nat → Parser β} (h : ∀ n, Takes (f n) T) :
    Takes (Parser.remaining >>= f) T :=
  look (fun _ => ⟨_, rfl⟩) h

theorem position {f : Nat → Parser β} (h : ∀ n, Takes (f n) T) :
    Takes (Parser.position >>= f) T :=
  look (fun _ => ⟨_, rfl⟩) h

theorem accept (t : Token) : Takes (Parser.accept t) fun ts b => ts = if b then [t] else [] := by
  intro c b d hrun
  rw [Parser.accept] at hrun
  split at hrun
  case isTrue hnext =>
    cases hrun
    obtain ⟨l, hl, htook⟩ := Cursor.took_advance hnext
    exact ⟨[l], htook, by simp [hl]⟩
  case isFalse =>
    cases hrun
    exact ⟨[], rfl, rfl⟩

theorem choose {t : Token} {f : Bool → Parser β} (hyes : Takes (f true) fun us b => T (t :: us) b)
    (hno : Takes (f false) T) : Takes (Parser.accept t >>= f) T := by
  refine bind (accept t) fun ts b hb => ?_
  cases b with
  | true => exact hb ▸ hyes
  | false => exact hb ▸ hno

theorem read {t : Token} {fault : SyntaxFault} {f : Unit → Parser β}
    (h : Takes (f ()) fun us b => T (t :: us) b) : Takes (Parser.expect t fault >>= f) T := by
  have hexpect : Takes (Parser.expect t fault) fun ts _ => ts = [t] :=
    choose (pure rfl) (fail fault)
  refine bind hexpect fun ts _ hts => ?_
  exact hts ▸ h

theorem name? {f : Option String → Parser β}
    (h : ∀ name, Takes (f name) fun us b => T (nameTokens name ++ us) b) :
    Takes (Parser.identifier? >>= f) T := by
  have hname : Takes Parser.identifier? fun ts name => ts = nameTokens name := by
    intro c b d hrun
    rw [Parser.identifier?] at hrun
    split at hrun
    case h_1 name hnext =>
      cases hrun
      obtain ⟨l, hl, htook⟩ := Cursor.took_advance hnext
      exact ⟨[l], htook, by simp [hl, nameTokens]⟩
    case h_2 =>
      cases hrun
      exact ⟨[], rfl, rfl⟩
  refine bind hname fun ts name hts => ?_
  exact hts ▸ h name

theorem name {fault : SyntaxFault} {f : String → Parser β}
    (h : ∀ name, Takes (f name) fun us b => T (.identifier name :: us) b) :
    Takes (Parser.identifier fault >>= f) T := by
  have hname : Takes (Parser.identifier fault) fun ts name => ts = [.identifier name] := by
    refine name? fun name => ?_
    cases name with
    | none => exact fail fault
    | some name => exact pure rfl
  refine bind hname fun ts name hts => ?_
  exact hts ▸ h name

theorem takesFrom (h : Takes p S) (next : Option Token) : TakesFrom next p S :=
  fun _ _ _ _ hrun => h hrun

end Takes

theorem TakesFrom.advance {β : Type} {t : Token} {f : Unit → Parser β}
    {T : List Token → β → Prop} (h : Takes (f ()) fun us b => T (t :: us) b) :
    TakesFrom (some t) (Parser.advance >>= f) T := by
  intro c b d hnext hrun
  obtain ⟨l, rfl, htook⟩ := Cursor.took_advance hnext
  obtain ⟨_, _, hadvance, hrest⟩ := Parser.bind_eq_ok.mp hrun
  cases hadvance
  obtain ⟨ls, hls, hb⟩ := h hrest
  exact ⟨l :: ls, htook.append hls, hb⟩

theorem separated_singleton {α : Type} {sign : Token} {S : List Token → α → Prop}
    {ts : List Token} {a : α} (h : S ts a) : Separated sign S ts [a] :=
  ⟨[(ts, a)], by simpa using h, by simp, rfl⟩

namespace Takes

theorem loop {α : Type} {p : Parser α} {S : List Token → α → Prop} {sign : Token}
    {q : Nat → Parser (List α)} (hp : Takes p S) (hzero : q 0 = do return [← p])
    (hsucc : ∀ n, q (n + 1) = do
      let first ← p
      if ← Parser.accept sign then
        let others ← q n
        return first :: others
      else
        return [first]) (limit : Nat) :
    Takes (q limit) fun ts items => items ≠ [] ∧ Separated sign S ts items := by
  induction limit with
  | zero =>
    rw [hzero]
    exact last hp fun ts a ha => ⟨List.cons_ne_nil a [], separated_singleton ha⟩
  | succ limit ih =>
    rw [hsucc]
    refine bind hp fun ts a ha => choose (last ih fun us items h => ?_) (pure ?_)
    · obtain ⟨hne, parts, hparts, rfl, rfl⟩ := h
      refine ⟨List.cons_ne_nil _ _, (ts, a) :: parts, ?_, ?_, rfl⟩
      · exact List.forall_mem_cons.mpr ⟨ha, hparts⟩
      · obtain ⟨part, parts, rfl⟩ := List.exists_cons_of_ne_nil (l := parts) (by simpa using hne)
        simp [List.intercalate_cons_cons]
    · rw [List.append_nil]
      exact ⟨List.cons_ne_nil a [], separated_singleton ha⟩

theorem separated {α : Type} {p : Parser α} {S : List Token → α → Prop} (hp : Takes p S)
    (limit : Nat) : Takes (Parser.separated p limit) fun ts items =>
      items ≠ [] ∧ Separated .comma S ts items :=
  loop hp rfl (fun _ => rfl) limit

theorem scalar : Takes Parser.scalar fun ts v => v.Spelled ts := by
  refine choose (peek fun next => ?negative) (peek fun next => ?positive)
  case negative =>
    obtain _ | token := next
    · exact (fail _).takesFrom _
    cases token
    case integer n => exact .advance (pure (.minusInteger n))
    case float x => exact .advance (pure (.minusFloat x))
    all_goals exact (fail _).takesFrom _
  case positive =>
    obtain _ | token := next
    · exact (fail _).takesFrom _
    cases token
    case integer n => exact .advance (pure (.integer n))
    case float x => exact .advance (pure (.float x))
    case string s => exact .advance (pure (.string s))
    case keyword word =>
      cases word
      case trueWord => exact .advance (pure .trueWord)
      case falseWord => exact .advance (pure .falseWord)
      case nullWord => exact .advance (pure .nullWord)
      all_goals exact (fail _).takesFrom _
    all_goals exact (fail _).takesFrom _

theorem literal (limit : Nat) : Takes (Parser.literal limit) fun ts v => v.Spelled ts := by
  induction limit with
  | zero => exact scalar
  | succ limit ih =>
    refine choose (choose ?_ (bind (separated ih limit) fun ts items h => ?_)) scalar
    · exact pure (@Value.Spelled.list [] (by simp))
    · obtain ⟨_, parts, hparts, rfl, rfl⟩ := h
      exact read (pure (.list hparts))

theorem property : Takes Parser.property PropertySpelled := by
  refine name fun key => read (remaining fun n => last (literal n) fun ts value h => ?_)
  exact .intro key h

theorem properties : Takes Parser.properties PropertiesSpelled := by
  refine read (choose ?_ (remaining fun n => bind (separated property n) fun ts pairs h => ?_))
  · exact pure (@PropertiesSpelled.braces [] [] ⟨[], by simp, rfl, rfl⟩)
  · exact read (pure (.braces h.2))

theorem tag? (fault : SyntaxFault) :
    Takes (Parser.tag? fault) fun ts name => ts = tagTokens name :=
  choose (name fun _ => pure rfl) (pure rfl)

theorem nodePattern : Takes Parser.nodePattern fun ts n => n.Spelled ts := by
  refine read (name? fun name => bind (tag? _) fun _ label hlabel => peek fun next =>
    takesFrom ?_ next)
  subst hlabel
  split
  · exact bind properties fun ts pairs h => read (pure (.intro name label h))
  · exact bind (pure (T := PropertiesSpelled) .nothing) fun ts pairs h =>
      read (pure (.intro name label h))

theorem relationshipDetail : Takes Parser.relationshipDetail fun ts detail =>
    (ts = [] ∧ detail = (none, none)) ∨
      ts = .openBracket :: (nameTokens detail.1 ++ (tagTokens detail.2 ++ [.closeBracket])) := by
  refine choose (name? fun name => bind (tag? _) fun _ edgeType htype => ?_) (pure ?_)
  · exact read (pure (.inr (by rw [htype])))
  · exact .inl ⟨rfl, rfl⟩

theorem arrowOrDash (arrow : Token) (fault : SyntaxFault) :
    Takes (Parser.arrowOrDash arrow fault) fun ts b => ts = [if b then arrow else .dash] :=
  choose (pure rfl) (read (pure rfl))

theorem relationshipPattern : Takes Parser.relationshipPattern fun ts r => r.Spelled ts := by
  refine bind (arrowOrDash _ _) fun _ incoming hstart => ?_
  refine bind relationshipDetail fun ts detail h => ?_
  obtain ⟨name, edgeType⟩ := detail
  refine bind (arrowOrDash _ _) fun _ outgoing hstop => ?_
  subst hstart hstop
  have hspelled : ∀ {start stop : Token} {direction : Direction}, direction.Spelled start stop →
      RelationshipPattern.Spelled ([start] ++ (ts ++ ([stop] ++ [])))
        ⟨name, edgeType, direction⟩ := by
    intro start stop direction hends
    rcases h with ⟨rfl, hdetail⟩ | rfl
    · cases hdetail
      exact .bare hends
    · simpa using RelationshipPattern.Spelled.brackets name edgeType hends
  cases incoming with
  | true =>
    cases outgoing with
    | true => exact fail _
    | false => exact pure (hspelled .incoming)
  | false =>
    cases outgoing with
    | true => exact pure (hspelled .outgoing)
    | false => exact pure (hspelled .both)

theorem pattern : Takes Parser.pattern fun ts p => p.Spelled ts := by
  refine bind nodePattern fun ts start hstart => peek fun next => takesFrom ?_ next
  split
  · refine bind relationshipPattern fun us r hr => last nodePattern fun vs stop hstop => ?_
    exact .hop hstart hr hstop
  · exact pure (by rw [List.append_nil]; exact .node hstart)

theorem argument : Takes Parser.argument fun ts name =>
    ts = [.openParen, .identifier name, .closeParen] :=
  read (name fun _ => read (pure rfl))

theorem operand : Takes Parser.operand fun ts o => o.Spelled ts := by
  refine position fun start => name? fun name => ?_
  cases name with
  | none => exact remaining fun n => last (literal n) fun ts value h => .literal h
  | some function =>
    refine choose (name fun key => pure (.property function key)) ?_
    rw [if_neg Bool.false_ne_true]
    split
    case h_1 hword => exact last argument fun ts name hts => hts ▸ .id hword name
    case h_2 hword => exact last argument fun ts name hts => hts ▸ .labels hword name
    case h_3 => exact failAt _ _

theorem comparisonOp : Takes Parser.comparisonOp fun ts op => ts = [op.token] := by
  refine peek fun next => ?_
  split
  case h_1 => exact .advance (pure rfl)
  case h_2 => exact .advance (pure rfl)
  case h_3 => exact .advance (pure rfl)
  case h_4 => exact (fail _).takesFrom _

theorem comparison : Takes Parser.comparison fun ts c => c.Spelled ts := by
  refine bind operand fun ts left hleft => bind comparisonOp fun _ op hop =>
    last operand fun us right hright => ?_
  rw [hop]
  exact .intro hleft op hright

theorem conjunction (limit : Nat) : Takes (Parser.conjunction limit) fun ts filter =>
    filter ≠ [] ∧ Separated (.keyword .andWord) Comparison.Spelled ts filter :=
  loop comparison rfl (fun _ => rfl) limit

theorem merge : TakesFrom (some (.keyword .mergeWord))
    (do Parser.advance; return Clause.merge (← Parser.pattern)) fun ts c =>
      ∃ us p, ts = .keyword .mergeWord :: us ∧ p.Spelled us ∧ c = .merge p :=
  .advance (last pattern fun ts p h => ⟨ts, p, rfl, h, rfl⟩)

theorem find : TakesFrom (some (.keyword .matchWord)) (do
    Parser.advance
    let p ← Parser.pattern
    if ← Parser.accept (.keyword .whereWord) then
      return Clause.find p (← Parser.conjunction (← Parser.remaining))
    else
      return .find p []) fun ts c => ∃ us vs p filter,
        ts = .keyword .matchWord :: (us ++ vs) ∧ p.Spelled us ∧ FilterSpelled vs filter ∧
          c = .find p filter := by
  refine .advance (bind pattern fun us p hp => choose (remaining fun n =>
    last (conjunction n) fun vs filter h => ?_) (pure ?_))
  · exact ⟨us, _, p, filter, rfl, hp, .conditions h.1 h.2, rfl⟩
  · exact ⟨us, [], p, [], rfl, hp, .nothing, rfl⟩

theorem projection : Takes Parser.projection fun ts p => p.Spelled ts := by
  intro c p d hrun
  obtain ⟨_, _, hcounts, hrest⟩ := Parser.bind_eq_ok.mp hrun
  cases hcounts
  split at hrest
  case isTrue hstarts =>
    obtain ⟨function, ts, hts, hword⟩ := Parser.startsCount_eq_true_iff.mp hstarts
    have hnext : c.next? = some (.identifier function) := by
      rw [Cursor.next?_eq_head?, Cursor.tokens, hts, List.head?_cons]
    refine TakesFrom.advance (last argument fun us name hus => ?_) hnext hrest
    rw [hus]
    exact .count hword name
  case isFalse => exact last operand (fun ts o h => .value h) hrest

end Takes

namespace Parser

theorem spelled_of_returnItem {c d : Cursor} {item : ReturnItem}
    (h : returnItem c = .ok (item, d)) :
    ∃ ls, c.Took ls d ∧ item.Spelled d.source ls d.lexemes := by
  obtain ⟨_, _, hposition, h⟩ := bind_eq_ok.mp h
  cases hposition
  obtain ⟨p, e, hp, h⟩ := bind_eq_ok.mp h
  obtain ⟨ls, hls, hspelled⟩ := Takes.projection hp
  cases h
  refine ⟨ls, hls, ?_⟩
  have hstart : c.position = Cursor.position ⟨d.source, ls⟩ := by
    rw [hls]
    cases ls with
    | nil => exact absurd List.map_nil hspelled.ne_nil
    | cons => rfl
  rw [hstart]
  exact .intro hspelled

theorem spelled_of_separated {limit : Nat} {c d : Cursor} {items : List ReturnItem}
    (h : separated returnItem limit c = .ok (items, d)) :
    ∃ ls, c.Took ls d ∧ ItemsSpelled d.source ls d.lexemes items := by
  induction limit generalizing c items with
  | zero =>
    obtain ⟨item, e, hitem, h⟩ := bind_eq_ok.mp h
    cases h
    obtain ⟨ls, hls, hspelled⟩ := spelled_of_returnItem hitem
    exact ⟨ls, hls, .one hspelled⟩
  | succ limit ih =>
    obtain ⟨item, e, hitem, h⟩ := bind_eq_ok.mp h
    obtain ⟨ls, hls, hspelled⟩ := spelled_of_returnItem hitem
    obtain ⟨more, f, haccept, h⟩ := bind_eq_ok.mp h
    obtain ⟨ms, hms, hsign⟩ := Takes.accept _ haccept
    subst hms
    cases more with
    | true =>
      obtain ⟨others, g, hothers, h⟩ := bind_eq_ok.mp h
      cases h
      obtain ⟨us, rfl, hitems⟩ := ih hothers
      obtain ⟨l, rfl, hcomma⟩ := List.map_eq_singleton_iff.mp hsign
      exact ⟨ls ++ l :: us, by simpa [Cursor.Took] using hls, .more hspelled hcomma hitems⟩
    | false =>
      cases h
      obtain rfl := List.map_eq_nil_iff.mp hsign
      exact ⟨ls, hls, .one hspelled⟩

/-- A clause that was read is spelled by the tokens it took. -/
theorem spelled_of_clause {c d : Cursor} {first : Clause} (h : clause c = .ok (first, d)) :
    ∃ ls, c.Took ls d ∧ first.Spelled d.source ls d.lexemes := by
  obtain ⟨q, hq, h⟩ := peek_bind_eq_ok.mp h
  split at hq <;> subst hq
  case h_1 hnext =>
    obtain ⟨ls, hls, us, p, htokens, hp, rfl⟩ := Takes.merge hnext h
    obtain ⟨l, us, rfl, hl, rfl⟩ := List.map_eq_cons_iff.mp htokens
    exact ⟨_, hls, .merge hl hp⟩
  case h_2 hnext =>
    obtain ⟨ls, hls, us, vs, p, filter, htokens, hp, hfilter, rfl⟩ := Takes.find hnext h
    obtain ⟨l, ms, rfl, hl, htokens⟩ := List.map_eq_cons_iff.mp htokens
    obtain ⟨us, vs, rfl, rfl, rfl⟩ := List.map_eq_append_iff.mp htokens
    exact ⟨_, hls, .find hl hp hfilter⟩
  case h_3 hnext =>
    obtain ⟨l, hl, htook⟩ := Cursor.took_advance hnext
    obtain ⟨_, _, hadvance, h⟩ := bind_eq_ok.mp h
    cases hadvance
    obtain ⟨_, _, hremaining, h⟩ := bind_eq_ok.mp h
    cases hremaining
    obtain ⟨items, e, hitems, h⟩ := bind_eq_ok.mp h
    cases h
    obtain ⟨ls, hls, hspelled⟩ := spelled_of_separated hitems
    exact ⟨_, htook.append hls, .result hl hspelled⟩
  case h_4 => cases h

/-- What stops clauses is a semicolon or the end, if there was room for a clause a token. -/
theorem spelled_of_clauses {limit : Nat} {c d : Cursor} {query : Query}
    (hlimit : c.lexemes.length ≤ limit) (h : clauses limit c = .ok (query, d)) :
    (∀ l ∈ d.lexemes.head?, l.token = .semicolon) ∧
      (query = [] ∧ d = c ∨ ∃ ls, c.Took ls d ∧ query.Spelled d.source ls d.lexemes) := by
  induction limit generalizing c query with
  | zero =>
    have hnil : c.lexemes = [] := List.eq_nil_of_length_eq_zero (Nat.le_zero.mp hlimit)
    cases h
    exact ⟨by simp [hnil], .inl ⟨rfl, rfl⟩⟩
  | succ limit ih =>
    obtain ⟨q, hq, h⟩ := peek_bind_eq_ok.mp h
    split at hq <;> subst hq
    case h_1 hnext =>
      cases h
      exact ⟨by simp_all [Cursor.next?], .inl ⟨rfl, rfl⟩⟩
    case h_2 hnext =>
      cases h
      refine ⟨fun l hl => ?_, .inl ⟨rfl, rfl⟩⟩
      rw [Cursor.next?, hl] at hnext
      exact Option.some.inj hnext
    case h_3 =>
      obtain ⟨first, e, hfirst, h⟩ := bind_eq_ok.mp h
      obtain ⟨others, f, hothers, h⟩ := bind_eq_ok.mp h
      cases h
      obtain ⟨ls, rfl, hspelled⟩ := spelled_of_clause hfirst
      obtain ⟨l, ms, _, rfl, _⟩ := hspelled.head
      have hroom : e.lexemes.length ≤ limit := by
        simp only [List.length_append, List.length_cons] at hlimit
        omega
      obtain ⟨hends, ⟨rfl, rfl⟩ | ⟨us, rfl, hquery⟩⟩ := ih hroom hothers
      · exact ⟨hends, .inr ⟨l :: ms, rfl, .one hspelled⟩⟩
      · exact ⟨hends, .inr ⟨l :: ms ++ us, by simp [Cursor.Took], .more hspelled hquery⟩⟩

/-- A script takes all tokens, if there was room for a query a token. -/
theorem spelled_of_queries {limit : Nat} {source : List Char} {ls : List Lexeme} {d : Cursor}
    {script : Script} (hlimit : ls.length < limit)
    (h : queries limit ⟨source, ls⟩ = .ok (script, d)) : script.Spelled source ls := by
  induction limit generalizing ls script with
  | zero => exact absurd hlimit (Nat.not_lt_zero _)
  | succ limit ih =>
    obtain ⟨q, hq, h⟩ := peek_bind_eq_ok.mp h
    split at hq <;> subst hq
    case h_1 hnext =>
      cases h
      obtain rfl : ls = [] := by simpa [Cursor.next?] using hnext
      exact .nothing
    case h_2 hnext =>
      cases ls with
      | nil => cases hnext
      | cons l ls =>
        exact .semicolon (Option.some.inj hnext) (ih (Nat.lt_of_succ_lt_succ hlimit) h)
    case h_3 hsome hsign =>
      obtain ⟨query, e, hquery, h⟩ := bind_eq_ok.mp h
      obtain ⟨others, f, hothers, h⟩ := bind_eq_ok.mp h
      cases h
      obtain ⟨hends, ⟨rfl, rfl⟩ | ⟨us, hus, hspelled⟩⟩ :=
        spelled_of_clauses (Nat.le_of_lt hlimit) hquery
      · -- The token that comes next is there and is no semicolon, so it was taken.
        cases ls with
        | nil => exact absurd rfl hsome
        | cons l ls => exact absurd (congrArg some (hends l rfl)) hsign
      · obtain ⟨rest, rest'⟩ := e
        cases hus
        obtain ⟨l, ms, _, rfl, _⟩ := hspelled.head
        have hroom : rest'.length < limit := by
          simp only [List.length_append, List.length_cons] at hlimit
          omega
        exact .query hspelled hends (ih hroom hothers)

end Parser

namespace Script

variable {source : List Char} {lexemes : List Lexeme} {script : Script}

theorem ofLexemes_of_spelled (h : script.Spelled source lexemes) :
    ofLexemes source lexemes = .ok script := by
  rw [ofLexemes, Parser.queries_of_spelled h (Nat.lt_succ_self _)]
  rfl

theorem spelled_of_ofLexemes (h : ofLexemes source lexemes = .ok script) :
    script.Spelled source lexemes := by
  rw [ofLexemes] at h
  cases hrun : Parser.queries (lexemes.length + 1) ⟨source, lexemes⟩ with
  | error e =>
    rw [hrun] at h
    cases h
  | ok found =>
    rw [hrun] at h
    cases h
    exact Parser.spelled_of_queries (Nat.lt_succ_self _) hrun

/-- Tokens spell one script at most. -/
theorem Spelled.unique {other : Script} (h : script.Spelled source lexemes)
    (hother : other.Spelled source lexemes) : script = other :=
  Except.ok.inj ((ofLexemes_of_spelled h).symm.trans (ofLexemes_of_spelled hother))

/-- The parser accepts exactly the tokens that the grammar spells some script with, and it returns
the script that they spell. -/
theorem reads_exactly_spelled (source : List Char) (lexemes : List Lexeme) (script : Script) :
    ofLexemes source lexemes = .ok script ↔ script.Spelled source lexemes :=
  ⟨spelled_of_ofLexemes, ofLexemes_of_spelled⟩

end Script

end FieldGraph
