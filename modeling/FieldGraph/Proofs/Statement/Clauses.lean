import FieldGraph.Proofs.Statement.Accepting
import FieldGraph.Proofs.Value.Literal

/-!
# Reading clauses

The tokens that patterns, conditions and the clauses made of them are written with. They are one of
the ways to spell these in the grammar, so the parser reads them back. Column names of results come
from the text and are no matter of tokens.
-/
namespace FieldGraph

def propertyTokens (property : String × Value) : List Token :=
  .identifier property.1 :: .colon :: property.2.tokens

def propertiesTokens : List (String × Value) → List Token
  | [] => []
  | pairs =>
    .openBrace :: ([Token.comma].intercalate (pairs.map propertyTokens) ++ [.closeBrace])

namespace NodePattern

def tokens (n : NodePattern) : List Token :=
  .openParen :: (nameTokens n.name ++ (tagTokens n.label ++ (propertiesTokens n.properties ++
    [.closeParen])))

def Writable (n : NodePattern) : Prop := ∀ property ∈ n.properties, property.2.Writable

end NodePattern

namespace RelationshipPattern

def startToken (r : RelationshipPattern) : Token :=
  match r.direction with
  | .incoming => .leftArrow
  | _ => .dash

def endToken (r : RelationshipPattern) : Token :=
  match r.direction with
  | .outgoing => .rightArrow
  | _ => .dash

def tokens (r : RelationshipPattern) : List Token :=
  r.startToken :: .openBracket ::
    (nameTokens r.name ++ (tagTokens r.edgeType ++ [.closeBracket, r.endToken]))

end RelationshipPattern

namespace Pattern

def tokens (p : Pattern) : List Token :=
  match p.hop with
  | none => p.start.tokens
  | some (r, stop) => p.start.tokens ++ (r.tokens ++ stop.tokens)

def Writable (p : Pattern) : Prop := p.start.Writable ∧ ∀ hop ∈ p.hop, hop.2.Writable

end Pattern

namespace Operand

def tokens : Operand → List Token
  | .literal value => value.tokens
  | .property name key => [.identifier name, .dot, .identifier key]
  | .id name => [.identifier "id", .openParen, .identifier name, .closeParen]
  | .labels name => [.identifier "labels", .openParen, .identifier name, .closeParen]

def Writable : Operand → Prop
  | .literal value => value.Writable
  | _ => True

end Operand

namespace Comparison

def tokens (c : Comparison) : List Token := c.left.tokens ++ (c.op.token :: c.right.tokens)

def Writable (c : Comparison) : Prop := c.left.Writable ∧ c.right.Writable

end Comparison

def mergeTokens (p : Pattern) : List Token := .keyword .mergeWord :: p.tokens

def filterTokens : List Comparison → List Token
  | [] => []
  | filter =>
    .keyword .whereWord :: [Token.keyword .andWord].intercalate (filter.map Comparison.tokens)

def findTokens (p : Pattern) (filter : List Comparison) : List Token :=
  .keyword .matchWord :: (p.tokens ++ filterTokens filter)

theorem separated_map {α : Type} {sign : Token} {Spelled : List Token → α → Prop}
    {tokens : α → List Token} {items : List α} (h : ∀ a ∈ items, Spelled (tokens a) a) :
    Separated sign Spelled ([sign].intercalate (items.map tokens)) items :=
  ⟨items.map fun a => (tokens a, a), by simpa using h, by simp [Function.comp_def],
    by simp [Function.comp_def]⟩

theorem Value.Writable.spelled {v : Value} (h : v.Writable) : v.Spelled v.tokens := by
  induction h with
  | null => exact .nullWord
  | bool b =>
    cases b with
    | true => exact .trueWord
    | false => exact .falseWord
  | @int i _ =>
    rw [Value.tokens]
    split
    · simpa using Value.Spelled.minusInteger (-i)
    · exact .integer i
  | float x =>
    rw [Value.tokens]
    split
    case isTrue hneg =>
      have hminus := Value.Spelled.minusFloat (.finite x.abs)
      rwa [Binary64.neg, Finite64.neg_abs_of_negative hneg] at hminus
    case isFalse hneg =>
      rw [Finite64.eq_abs_of_not_negative (by simpa using hneg)]
      exact .float (.finite x)
  | string s => exact .string s
  | @list items _ ih =>
    rw [Value.tokens, Value.itemTokens_eq_map]
    obtain ⟨parts, hparts, htokens, hitems⟩ : Separated .comma Value.Spelled _ items :=
      separated_map ih
    rw [htokens, hitems]
    exact .list hparts

theorem propertiesSpelled {pairs : List (String × Value)} (h : ∀ pair ∈ pairs, pair.2.Writable) :
    PropertiesSpelled (propertiesTokens pairs) pairs := by
  cases pairs with
  | nil => exact .nothing
  | cons pair pairs =>
    exact .braces (separated_map fun pair hpair => .intro pair.1 (h pair hpair).spelled)

theorem NodePattern.Writable.spelled {n : NodePattern} (h : n.Writable) : n.Spelled n.tokens :=
  .intro n.name n.label (propertiesSpelled h)

theorem RelationshipPattern.spelled (r : RelationshipPattern) : r.Spelled r.tokens := by
  obtain ⟨name, edgeType, direction⟩ := r
  cases direction with
  | outgoing => exact .brackets name edgeType .outgoing
  | incoming => exact .brackets name edgeType .incoming
  | both => exact .brackets name edgeType .both

theorem Pattern.Spelled.ne_nil {ts : List Token} {p : Pattern} (h : p.Spelled ts) : ts ≠ [] := by
  cases h with
  | node hstart =>
    cases hstart with
    | intro => exact List.cons_ne_nil _ _
  | hop hstart =>
    cases hstart with
    | intro => exact List.cons_ne_nil _ _

theorem Pattern.Writable.spelled {p : Pattern} (h : p.Writable) : p.Spelled p.tokens := by
  obtain ⟨start, _ | ⟨r, stop⟩⟩ := p
  case none => exact .node h.1.spelled
  case some => exact .hop h.1.spelled r.spelled (NodePattern.Writable.spelled (h.2 _ rfl))

theorem Operand.Writable.spelled {o : Operand} (h : o.Writable) : o.Spelled o.tokens := by
  cases o with
  | literal value => exact .literal (Value.Writable.spelled h)
  | property name key => exact .property name key
  | id name => exact .id (by decide) name
  | labels name => exact .labels (by decide) name

theorem filterSpelled {filter : List Comparison} (h : ∀ c ∈ filter, c.Writable) :
    FilterSpelled (filterTokens filter) filter := by
  cases filter with
  | nil => exact .nothing
  | cons c filter =>
    refine .conditions (List.cons_ne_nil c filter) (separated_map fun c hc => ?_)
    exact .intro (h c hc).1.spelled c.op (h c hc).2.spelled

namespace Reads

theorem merges {patterns : List Pattern} {limit : Nat} (hlimit : patterns.length ≤ limit)
    (h : ∀ p ∈ patterns, p.Writable) :
    Reads (Parser.clauses limit) (patterns.flatMap mergeTokens) [] (patterns.map .merge) := by
  induction patterns generalizing limit with
  | nil =>
    cases limit with
    | zero => exact pure _ _
    | succ limit => exact peek (pure _ _)
  | cons p patterns ih =>
    obtain ⟨limit, rfl⟩ : ∃ k, limit = k + 1 := by
      simp only [List.length_cons] at hlimit
      exact ⟨limit - 1, by omega⟩
    have hcount : patterns.length ≤ limit := by
      simp only [List.length_cons] at hlimit
      omega
    have htail := ih hcount fun q hq => h q (List.mem_cons_of_mem _ hq)
    have hends : EndsClause (patterns.flatMap mergeTokens ++ []) := by
      cases patterns <;> simp [EndsClause, mergeTokens, clauseEnds]
    exact peek (bind _ (merge (h p List.mem_cons_self).spelled hends) (last htail (pure _ _)))

end Reads

namespace Parser

theorem clauses_result {source : List Char} {lexemes : List Lexeme} {ts : List Token}
    {p : Projection} (hp : p.Spelled ts)
    (htokens : lexemes.map Lexeme.token = .keyword .returnWord :: ts) :
    ∃ column, ∀ limit, clauses (limit + 2) ⟨source, lexemes⟩ =
      .ok ([.result [⟨p, column⟩]], ⟨source, []⟩) := by
  obtain ⟨l, ls, rfl, hl, rfl⟩ := List.map_eq_cons_iff.mp htokens
  have hspelled : Clause.Spelled source (l :: ls) [] (.result [⟨p, columnText source ls []⟩]) :=
    .result hl (.one (.intro hp))
  have hresult := clause_of_spelled hspelled (by simp [EndsClause])
  rw [List.append_nil] at hresult
  exact ⟨_, fun limit => clauses_cons (k := .returnWord) (by simp [Cursor.next?, hl]) hresult rfl⟩

end Parser

namespace Script

theorem ofLexemes_of_clauses {source : List Char} {lexemes : List Lexeme} {query : Query}
    {c : Cursor} {k : Keyword} (hfirst : Cursor.next? ⟨source, lexemes⟩ = some (.keyword k))
    (hread : Parser.clauses (lexemes.length + 1) ⟨source, lexemes⟩ = .ok (query, c))
    (hend : c.lexemes = []) : Script.ofLexemes source lexemes = .ok [query] := by
  have hdone : ∀ limit, Parser.queries limit c = .ok ([], c) := by
    intro limit
    cases limit with
    | zero => rfl
    | succ limit =>
      obtain ⟨source, lexemes⟩ := c
      rw [show lexemes = [] from hend]
      rfl
  have hqueries : Parser.queries (lexemes.length + 1) ⟨source, lexemes⟩ = .ok ([query], c) := by
    rw [Parser.queries, Parser.bind_ok (Parser.peek_ok _), hfirst]
    dsimp only
    rw [Parser.bind_ok hread, Parser.bind_ok (hdone _)]
    rfl
  rw [Script.ofLexemes, hqueries]
  rfl

theorem parse_of_clauses {text : String} {ts : List Token} {query : Query} {k : Keyword}
    (hlex : Lexes text.toList [] (.keyword k :: ts))
    (hread : Reads (Parser.clauses (ts.length + 2)) (.keyword k :: ts) [] query) :
    Script.parse text = .ok [query] := by
  obtain ⟨lexemes, hlexemes, hlex⟩ := hlex.lex_eq
  have hlen : lexemes.length = ts.length + 1 := by
    rw [← List.length_map (f := Lexeme.token), hlexemes, List.length_cons]
  have htokens : Cursor.tokens ⟨text.toList, lexemes⟩ = .keyword k :: ts := hlexemes
  have hfirst : Cursor.next? ⟨text.toList, lexemes⟩ = some (.keyword k) := by
    rw [Cursor.next?_eq_head?, htokens, List.head?_cons]
  have hquery := hread ⟨text.toList, lexemes⟩ (by rw [htokens, List.append_nil])
  have hend : (Cursor.skip ⟨text.toList, lexemes⟩ (Token.keyword k :: ts).length).lexemes = [] := by
    show lexemes.drop (ts.length + 1) = []
    rw [← hlen, List.drop_length]
  rw [Script.parse, hlex]
  exact ofLexemes_of_clauses hfirst (hlen ▸ hquery) hend

/-- The script of a text whose tokens are known. Without a result there are no column names, and
the text itself plays no part. -/
theorem parse_of_lex {text : String} (lexemes : List Lexeme) {script : Script}
    (hlex : (lex text.toList).toOption = some lexemes)
    (hread : ∀ source, ofLexemes source lexemes = .ok script) :
    Script.parse text = .ok script := by
  cases hfound : lex text.toList with
  | error e =>
    rw [hfound] at hlex
    cases hlex
  | ok found =>
    rw [hfound] at hlex
    cases hlex
    rw [Script.parse, hfound]
    exact hread text.toList

theorem parse_of_find_tokens {text : String} {front tail : List Char} {lexemes : List Lexeme}
    {ts us : List Token} {p : Pattern} {filter : List Comparison} {others : Query}
    (htext : text.toList = front ++ tail)
    (hfront : Lexes front tail (.keyword .matchWord :: (ts ++ us))) (hp : p.Spelled ts)
    (hfilter : FilterSpelled us filter)
    (htail : Lexer.lexFrom (byteLength front) 0 tail = .ok lexemes)
    (hends : EndsClause (lexemes.map Lexeme.token))
    (hothers : ∀ limit, Parser.clauses (limit + 2) ⟨front ++ tail, lexemes⟩ =
      .ok (others, ⟨front ++ tail, []⟩)) :
    Script.parse text = .ok [.find p filter :: others] := by
  obtain ⟨found, hfound, hlex⟩ := hfront 0
  rw [Nat.zero_add, htail] at hlex
  have htokens : Cursor.tokens ⟨front ++ tail, found ++ lexemes⟩ =
      .keyword .matchWord :: (ts ++ us) ++ lexemes.map Lexeme.token := by
    rw [Cursor.tokens, List.map_append, hfound]
  have hnext : Cursor.next? ⟨front ++ tail, found ++ lexemes⟩ = some (.keyword .matchWord) := by
    rw [Cursor.next?_eq_head?, htokens]
    rfl
  have hread : Reads Parser.clause (.keyword .matchWord :: (ts ++ us))
      (lexemes.map Lexeme.token) (.find p filter) := Reads.find hp hfilter hends
  have hlength := congrArg List.length hfound
  rw [← hfound] at hread
  have hfind := hread.run (front ++ tail)
  obtain ⟨limit, hlimit⟩ : ∃ limit, (found ++ lexemes).length = limit + 2 := by
    have hone := List.length_pos_of_ne_nil hp.ne_nil
    rw [List.length_map, List.length_cons, List.length_append] at hlength
    exact ⟨(found ++ lexemes).length - 2, by rw [List.length_append]; omega⟩
  have hquery := Parser.clauses_cons hnext hfind (hothers limit)
  rw [← hlimit] at hquery
  rw [Script.parse, htext, lex, hlex]
  exact ofLexemes_of_clauses hnext hquery rfl

theorem parse_of_find {text : String} {front tail : List Char} {lexemes : List Lexeme}
    {p : Pattern} {filter : List Comparison} {others : Query} (htext : text.toList = front ++ tail)
    (hfront : Lexes front tail (findTokens p filter)) (hp : p.Writable)
    (hfilter : ∀ c ∈ filter, c.Writable)
    (htail : Lexer.lexFrom (byteLength front) 0 tail = .ok lexemes)
    (hends : EndsClause (lexemes.map Lexeme.token))
    (hothers : ∀ limit, Parser.clauses (limit + 2) ⟨front ++ tail, lexemes⟩ =
      .ok (others, ⟨front ++ tail, []⟩)) :
    Script.parse text = .ok [.find p filter :: others] :=
  parse_of_find_tokens htext hfront hp.spelled (filterSpelled hfilter) htail hends hothers

theorem parse_of_find_value_tokens {text : String} {front tail : List Char}
    {ts us vs : List Token} {p : Pattern} {filter : List Comparison} {o : Operand}
    (htext : text.toList = front ++ tail)
    (hfront : Lexes front tail (.keyword .matchWord :: (ts ++ us))) (hp : p.Spelled ts)
    (hfilter : FilterSpelled us filter) (ho : o.Spelled vs)
    (htail : Lexes tail [] (.keyword .returnWord :: vs)) :
    ∃ column, Script.parse text = .ok [[.find p filter, .result [⟨.value o, column⟩]]] := by
  obtain ⟨lexemes, htokens, hlex⟩ := htail (byteLength front)
  have hlexemes : Lexer.lexFrom (byteLength front) 0 tail = .ok lexemes := by
    simpa [Lexer.lexFrom, Except.map] using hlex
  have hends : EndsClause (lexemes.map Lexeme.token) := by
    simp [htokens, EndsClause, clauseEnds]
  obtain ⟨column, hresult⟩ :=
    @Parser.clauses_result (front ++ tail) _ _ _ (.value ho) htokens
  exact ⟨column, parse_of_find_tokens htext hfront hp hfilter hlexemes hends hresult⟩

theorem parse_of_find_value {text : String} {front tail : List Char} {p : Pattern}
    {filter : List Comparison} {o : Operand} (htext : text.toList = front ++ tail)
    (hfront : Lexes front tail (findTokens p filter)) (hp : p.Writable)
    (hfilter : ∀ c ∈ filter, c.Writable) (ho : o.Writable)
    (htail : Lexes tail [] (.keyword .returnWord :: o.tokens)) :
    ∃ column, Script.parse text = .ok [[.find p filter, .result [⟨.value o, column⟩]]] :=
  parse_of_find_value_tokens htext hfront hp.spelled (filterSpelled hfilter) ho.spelled htail

end Script

end FieldGraph
