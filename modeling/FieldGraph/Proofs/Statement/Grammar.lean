import FieldGraph.Statement.Parser

/-!
# The grammar of statements

Which tokens spell a script, and which script they spell, whatever way they are read. Positions play
a part only in the names of columns, which are the text from one token to another. The words for
functions are no keywords, and they are told by their lower case.
-/
namespace FieldGraph

def nameTokens (name : Option String) : List Token := name.toList.map .identifier

def tagTokens : Option String → List Token
  | some name => [.colon, .identifier name]
  | none => []

/-- The tokens are those of parts with a sign between them, and each part spells its item. -/
def Separated {α : Type} (sign : Token) (Spelled : List Token → α → Prop) (ts : List Token)
    (items : List α) : Prop :=
  ∃ parts : List (List Token × α), (∀ part ∈ parts, Spelled part.1 part.2) ∧
    ts = [sign].intercalate (parts.map Prod.fst) ∧ items = parts.map Prod.snd

/-- The tokens of a literal. A dash stands only before a number. -/
inductive Value.Spelled : List Token → Value → Prop
  | integer (n : Int64) : Spelled [.integer n] (.int n)
  | minusInteger (n : Int64) : Spelled [.dash, .integer n] (.int (-n))
  | float (x : Binary64) : Spelled [.float x] (.float x)
  | minusFloat (x : Binary64) : Spelled [.dash, .float x] (.float x.neg)
  | string (s : String) : Spelled [.string s] (.string s)
  | trueWord : Spelled [.keyword .trueWord] (.bool true)
  | falseWord : Spelled [.keyword .falseWord] (.bool false)
  | nullWord : Spelled [.keyword .nullWord] .null
  | list {parts : List (List Token × Value)} (h : ∀ part ∈ parts, Spelled part.1 part.2) :
      Spelled (.openBracket ::
        ([Token.comma].intercalate (parts.map Prod.fst) ++ [.closeBracket]))
        (.list (parts.map Prod.snd))

inductive PropertySpelled : List Token → String × Value → Prop
  | intro (key : String) {ts : List Token} {value : Value} (h : value.Spelled ts) :
      PropertySpelled (.identifier key :: .colon :: ts) (key, value)

inductive PropertiesSpelled : List Token → List (String × Value) → Prop
  | nothing : PropertiesSpelled [] []
  | braces {ts : List Token} {pairs : List (String × Value)}
      (h : Separated .comma PropertySpelled ts pairs) :
      PropertiesSpelled (.openBrace :: (ts ++ [.closeBrace])) pairs

inductive NodePattern.Spelled : List Token → NodePattern → Prop
  | intro (name label : Option String) {ts : List Token} {pairs : List (String × Value)}
      (h : PropertiesSpelled ts pairs) :
      Spelled (.openParen ::
        (nameTokens name ++ (tagTokens label ++ (ts ++ [.closeParen])))) ⟨name, label, pairs⟩

/-- The signs at the two ends of a relationship, which does not point both ways. -/
inductive Direction.Spelled : Token → Token → Direction → Prop
  | outgoing : Spelled .dash .rightArrow .outgoing
  | incoming : Spelled .leftArrow .dash .incoming
  | both : Spelled .dash .dash .both

inductive RelationshipPattern.Spelled : List Token → RelationshipPattern → Prop
  | bare {start stop : Token} {direction : Direction} (h : direction.Spelled start stop) :
      Spelled [start, stop] ⟨none, none, direction⟩
  | brackets (name edgeType : Option String) {start stop : Token} {direction : Direction}
      (h : direction.Spelled start stop) :
      Spelled (start :: .openBracket ::
        (nameTokens name ++ (tagTokens edgeType ++ [.closeBracket, stop])))
        ⟨name, edgeType, direction⟩

inductive Pattern.Spelled : List Token → Pattern → Prop
  | node {ts : List Token} {start : NodePattern} (h : start.Spelled ts) :
      Spelled ts ⟨start, none⟩
  | hop {ts us vs : List Token} {start stop : NodePattern} {r : RelationshipPattern}
      (hstart : start.Spelled ts) (hr : r.Spelled us) (hstop : stop.Spelled vs) :
      Spelled (ts ++ (us ++ vs)) ⟨start, some (r, stop)⟩

inductive Operand.Spelled : List Token → Operand → Prop
  | literal {ts : List Token} {value : Value} (h : value.Spelled ts) :
      Spelled ts (.literal value)
  | property (name key : String) : Spelled [.identifier name, .dot, .identifier key]
      (.property name key)
  | id {function : String} (h : Parser.lowercase function = "id") (name : String) :
      Spelled [.identifier function, .openParen, .identifier name, .closeParen] (.id name)
  | labels {function : String} (h : Parser.lowercase function = "labels") (name : String) :
      Spelled [.identifier function, .openParen, .identifier name, .closeParen] (.labels name)

def ComparisonOp.token : ComparisonOp → Token
  | .equals => .equals
  | .notEquals => .notEquals
  | .contains => .keyword .containsWord

inductive Comparison.Spelled : List Token → Comparison → Prop
  | intro {ts us : List Token} {left right : Operand} (hleft : left.Spelled ts)
      (op : ComparisonOp) (hright : right.Spelled us) :
      Spelled (ts ++ (op.token :: us)) ⟨left, op, right⟩

inductive FilterSpelled : List Token → List Comparison → Prop
  | nothing : FilterSpelled [] []
  | conditions {ts : List Token} {filter : List Comparison} (hne : filter ≠ [])
      (h : Separated (.keyword .andWord) Comparison.Spelled ts filter) :
      FilterSpelled (.keyword .whereWord :: ts) filter

inductive Projection.Spelled : List Token → Projection → Prop
  | value {ts : List Token} {o : Operand} (h : o.Spelled ts) : Spelled ts (.value o)
  | count {function : String} (h : Parser.lowercase function = "count") (name : String) :
      Spelled [.identifier function, .openParen, .identifier name, .closeParen] (.count name)

/-- The text from the first token of some up to those after them, without blanks at its ends. -/
def columnText (source : List Char) (ls rest : List Lexeme) : String :=
  Parser.slice source (Cursor.position ⟨source, ls⟩) (Cursor.position ⟨source, rest⟩)

/-- A column is named by its text, which ends where the tokens after it begin. -/
inductive ReturnItem.Spelled (source : List Char) : List Lexeme → List Lexeme → ReturnItem → Prop
  | intro {ls rest : List Lexeme} {p : Projection} (h : p.Spelled (ls.map Lexeme.token)) :
      Spelled source ls rest ⟨p, columnText source ls rest⟩

inductive ItemsSpelled (source : List Char) : List Lexeme → List Lexeme → List ReturnItem → Prop
  | one {ls rest : List Lexeme} {item : ReturnItem} (h : item.Spelled source ls rest) :
      ItemsSpelled source ls rest [item]
  | more {ls ms rest : List Lexeme} {l : Lexeme} {item : ReturnItem} {items : List ReturnItem}
      (h : item.Spelled source ls (l :: (ms ++ rest))) (hcomma : l.token = .comma)
      (others : ItemsSpelled source ms rest items) :
      ItemsSpelled source (ls ++ l :: ms) rest (item :: items)

inductive Clause.Spelled (source : List Char) : List Lexeme → List Lexeme → Clause → Prop
  | merge {l : Lexeme} {ls rest : List Lexeme} {p : Pattern}
      (hword : l.token = .keyword .mergeWord) (h : p.Spelled (ls.map Lexeme.token)) :
      Spelled source (l :: ls) rest (.merge p)
  | find {l : Lexeme} {ls ms rest : List Lexeme} {p : Pattern} {filter : List Comparison}
      (hword : l.token = .keyword .matchWord) (hp : p.Spelled (ls.map Lexeme.token))
      (hfilter : FilterSpelled (ms.map Lexeme.token) filter) :
      Spelled source (l :: (ls ++ ms)) rest (.find p filter)
  | result {l : Lexeme} {ls rest : List Lexeme} {items : List ReturnItem}
      (hword : l.token = .keyword .returnWord) (h : ItemsSpelled source ls rest items) :
      Spelled source (l :: ls) rest (.result items)

inductive Query.Spelled (source : List Char) : List Lexeme → List Lexeme → Query → Prop
  | one {ls rest : List Lexeme} {c : Clause} (h : c.Spelled source ls rest) :
      Spelled source ls rest [c]
  | more {ls ms rest : List Lexeme} {c : Clause} {query : Query}
      (h : c.Spelled source ls (ms ++ rest)) (others : Spelled source ms rest query) :
      Spelled source (ls ++ ms) rest (c :: query)

/-- Queries with semicolons around them. A query ends only at a semicolon or where all ends, so it
has all the clauses between two semicolons. -/
inductive Script.Spelled (source : List Char) : List Lexeme → Script → Prop
  | nothing : Spelled source [] []
  | semicolon {l : Lexeme} {ls : List Lexeme} {script : Script} (hsign : l.token = .semicolon)
      (h : Spelled source ls script) : Spelled source (l :: ls) script
  | query {ls rest : List Lexeme} {query : Query} {script : Script}
      (h : Query.Spelled source ls rest query)
      (hends : ∀ l ∈ rest.head?, l.token = .semicolon) (others : Spelled source rest script) :
      Spelled source (ls ++ rest) (query :: script)

end FieldGraph
