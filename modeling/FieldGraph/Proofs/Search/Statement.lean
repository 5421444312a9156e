import FieldGraph.Field.Resolve
import FieldGraph.Proofs.Statement.Clauses
import FieldGraph.Proofs.Statement.Offsets

/-!
# The statement of a search

The text that a search sends is read as the conditions of the search and nothing else, whatever
the search text is. Keys lose their backticks and strings are escaped, so neither can end early.
-/
namespace FieldGraph

def searchVariable : String := "n"

namespace SearchTarget

def operand : SearchTarget → Operand
  | .nodeId => .id searchVariable
  | .property key => .property searchVariable key

end SearchTarget

def SearchComparator.op : SearchComparator → ComparisonOp
  | .equals => .equals
  | .contains => .contains

def SearchValue.value : SearchValue → Value
  | .int i => .int i
  | .string s => .string s

namespace SearchPredicate

def comparison (p : SearchPredicate) : Comparison :=
  ⟨p.target.operand, p.comparator.op, .literal p.value.value⟩

/-- A predicate that a search text can spell. The number of a node is compared as a whole, and a
property, whose name can stand between backticks, by part of its text. -/
inductive Parsed : SearchPredicate → Prop
  | nodeId (value : SearchValue) : Parsed ⟨.nodeId, .equals, value⟩
  | property {key : String} (hkey : '\x60' ∉ key.toList) (value : SearchValue) :
      Parsed ⟨.property key, .contains, value⟩

end SearchPredicate

theorem parsed_predicate (t : SearchToken) : t.predicate.Parsed := by
  unfold SearchToken.predicate
  split
  · exact .nodeId _
  · exact .property (by simp) _

theorem parsed_of_mem_parse {text : String} {p : SearchPredicate}
    (h : p ∈ (Search.parse text).predicates) : p.Parsed := by
  obtain ⟨t, _, rfl⟩ := List.mem_map.mp h
  exact parsed_predicate t

namespace Lexes

/-- The variable of a search ends at every character that cannot be part of a name. -/
theorem searchVariable {rest : List Char} (hrest : EndsWord rest) :
    Lexes ['n'] rest [.identifier FieldGraph.searchVariable] :=
  @identifier FieldGraph.searchVariable rest (by decide) hrest

theorem searchTarget {p : SearchPredicate} (hp : p.Parsed) (rest : List Char) :
    Lexes p.target.text.toList rest p.target.operand.tokens := by
  cases hp with
  | nodeId value =>
    show Lexes "id(n)".toList rest _
    refine ofText (['i', 'd'] ++ ('(' :: (['n'] ++ [')']))) rfl ?_
    refine append (@identifier "id" _ (by decide) (endsWord_cons _ (by decide))) ?_
    refine cons (sign _ (by simp [plainSigns])) ?_
    exact append (searchVariable (endsWord_cons _ (by decide))) (sign rest (by simp [plainSigns]))
  | @property key hkey value =>
    have htext : (SearchTarget.property key).text.toList =
        ['n'] ++ ('.' :: ('\x60' :: (key.toList ++ ['\x60']))) := by
      simp [SearchTarget.text]
    have hname := quotedIdentifier rest hkey
    rw [String.ofList_toList] at hname
    show Lexes (SearchTarget.property key).text.toList rest _
    rw [htext]
    exact append (searchVariable (endsWord_cons _ (by decide)))
      (cons (sign _ (by simp [plainSigns])) hname)

theorem searchComparator (comparator : SearchComparator) (rest : List Char) :
    Lexes (" " ++ comparator.text ++ " ").toList rest [comparator.op.token] := by
  cases comparator with
  | equals =>
    refine ofText [' ', '=', ' '] rfl ?_
    have hsign : Lexes ['='] (' ' :: rest) [.equals] := sign _ (by simp [plainSigns])
    exact cons (space _) (append hsign (space rest))
  | contains =>
    refine ofText (' ' :: (['C', 'O', 'N', 'T', 'A', 'I', 'N', 'S'] ++ [' '])) rfl ?_
    exact cons (space _) (append
      (keyword (by decide) (by decide) (by decide) (endsWord_cons _ (by decide))) (space rest))

theorem searchValue {value : SearchValue} (hvalue : value ≠ .int Int64.minValue)
    {rest : List Char} (hrest : EndsLiteral rest) :
    Lexes value.text.toList rest value.value.tokens := by
  cases value with
  | int i => exact int (fun heq => hvalue (by rw [heq])) hrest
  | string s => exact string s rest

theorem searchPredicate {p : SearchPredicate} (hp : p.Parsed)
    (hvalue : p.value ≠ .int Int64.minValue) {rest : List Char} (hrest : EndsLiteral rest) :
    Lexes p.text.toList rest p.comparison.tokens := by
  have hall := append (searchTarget hp _)
    (append (searchComparator p.comparator _) (searchValue hvalue hrest))
  simpa [SearchPredicate.text, SearchPredicate.comparison, Comparison.tokens, Operand.tokens]
    using hall

theorem andWord (rest : List Char) : Lexes " AND ".toList rest [.keyword .andWord] := by
  refine ofText (' ' :: (['A', 'N', 'D'] ++ [' '])) rfl ?_
  exact cons (space _) (append
    (keyword (by decide) (by decide) (by decide) (endsWord_cons _ (by decide))) (space rest))

theorem whereWord (rest : List Char) : Lexes "WHERE ".toList rest [.keyword .whereWord] := by
  refine ofText (['W', 'H', 'E', 'R', 'E'] ++ [' ']) rfl ?_
  exact append (keyword (by decide) (by decide) (by decide) (endsWord_cons _ (by decide)))
    (space rest)

theorem matchOpen (rest : List Char) :
    Lexes "MATCH (n) ".toList rest
      [.keyword .matchWord, .openParen, .identifier FieldGraph.searchVariable, .closeParen] := by
  refine ofText (['M', 'A', 'T', 'C', 'H'] ++ (' ' :: '(' :: (['n'] ++ [')', ' ']))) rfl ?_
  refine append (keyword (by decide) (by decide) (by decide) (endsWord_cons _ (by decide))) ?_
  refine cons (space _) (cons (sign _ (by simp [plainSigns])) ?_)
  refine append (searchVariable (endsWord_cons _ (by decide))) ?_
  exact cons (sign _ (by simp [plainSigns])) (space rest)

end Lexes

theorem endsLiteral_andWord (rest : List Char) : EndsLiteral (" AND ".toList ++ rest) := by
  have htext : " AND ".toList = [' ', 'A', 'N', 'D', ' '] := rfl
  rw [htext]
  exact endsLiteral_cons _ (by decide)

theorem Unlexable.searchPredicate {p : SearchPredicate} (hp : p.Parsed)
    (hvalue : p.value = .int Int64.minValue) {rest : List Char} (hrest : EndsLiteral rest) :
    Unlexable (p.text.toList ++ rest) := by
  have hfault : Unlexable (p.value.text.toList ++ rest) := by
    rw [hvalue]
    exact Unlexable.minValue hrest
  have hall := Lexes.unlexable (Lexes.searchTarget hp _)
    (Lexes.unlexable (Lexes.searchComparator p.comparator _) hfault)
  simpa [SearchPredicate.text] using hall

namespace Search

def pattern : Pattern := ⟨⟨searchVariable, none, []⟩, none⟩

def comparisons (s : Search) : List Comparison := s.predicates.map SearchPredicate.comparison

def findText (s : Search) : List Char := ("MATCH (n) " ++ s.clause).toList

theorem findText_nil {s : Search} (h : s.predicates = []) : s.findText = "MATCH (n) ".toList := by
  simp [findText, clause, isEmpty, h]

theorem findText_cons {s : Search} (h : s.predicates ≠ []) :
    s.findText = "MATCH (n) ".toList ++ ("WHERE ".toList ++
      " AND ".toList.intercalate (s.predicates.map fun p => p.text.toList)) := by
  have hempty : s.isEmpty = false := by simpa [isEmpty] using h
  unfold findText clause
  rw [hempty, if_neg (by simp)]
  simp only [String.toList_append, String.toList_intercalate, List.map_map]
  rfl

/-- The conditions of a search are read as one comparison for each predicate. -/
theorem lexes_findText {s : Search} (hparsed : ∀ p ∈ s.predicates, p.Parsed)
    (hvalues : ∀ p ∈ s.predicates, p.value ≠ .int Int64.minValue) {rest : List Char}
    (hrest : EndsLiteral rest) :
    Lexes s.findText rest (findTokens pattern s.comparisons) := by
  by_cases hnil : s.predicates = []
  · rw [findText_nil hnil, comparisons, hnil]
    exact Lexes.matchOpen rest
  · have hpredicates := Lexes.separated s.predicates _
      (fun p => p.comparison.tokens) Lexes.andWord endsLiteral_andWord
      (fun p hp rest hrest => Lexes.searchPredicate (hparsed p hp) (hvalues p hp) hrest) hrest
    have hall := Lexes.append (Lexes.matchOpen _) (Lexes.append (Lexes.whereWord _) hpredicates)
    have hfilter : filterTokens s.comparisons = .keyword .whereWord ::
        [Token.keyword .andWord].intercalate (s.predicates.map fun p => p.comparison.tokens) := by
      rw [filterTokens.eq_2 _ (by simpa [comparisons] using hnil), comparisons, List.map_map]
      rfl
    rw [findText_cons hnil, findTokens, hfilter]
    exact hall

theorem unlexable_findText {s : Search} (hparsed : ∀ p ∈ s.predicates, p.Parsed)
    (hbad : ∃ p ∈ s.predicates, p.value = .int Int64.minValue) {rest : List Char}
    (hrest : EndsLiteral rest) : Unlexable (s.findText ++ rest) := by
  have hne : s.predicates ≠ [] := by
    rintro hnil
    simp [hnil] at hbad
  have hpredicates : Unlexable
      (" AND ".toList.intercalate (s.predicates.map fun p => p.text.toList) ++ rest) := by
    refine Unlexable.separated (fun p : SearchPredicate => p.comparison.tokens)
      Lexes.andWord endsLiteral_andWord ?_ ?_ hrest
    · intro p hp
      by_cases hvalue : p.value = .int Int64.minValue
      · exact .inr fun rest hrest => Unlexable.searchPredicate (hparsed p hp) hvalue hrest
      · exact .inl fun rest hrest => Lexes.searchPredicate (hparsed p hp) hvalue hrest
    · obtain ⟨p, hp, hvalue⟩ := hbad
      exact ⟨p, hp, fun rest hrest => Unlexable.searchPredicate (hparsed p hp) hvalue hrest⟩
  rw [findText_cons hne, List.append_assoc, List.append_assoc]
  exact Lexes.unlexable (Lexes.matchOpen _) (Lexes.unlexable (Lexes.whereWord _) hpredicates)

def resultText : String := " RETURN id(n),labels(n)"

def resultItems : List ReturnItem :=
  [⟨.value (.id searchVariable), "id(n)"⟩, ⟨.value (.labels searchVariable), "labels(n)"⟩]

def statement (s : Search) : String := "MATCH (n) " ++ s.clause ++ resultText

def query (s : Search) : Query := [.find pattern s.comparisons, .result resultItems]

def resultLexemes (start : Nat) : List Lexeme :=
  [⟨.keyword .returnWord, start + 1⟩, ⟨.identifier "id", start + 8⟩, ⟨.openParen, start + 10⟩,
    ⟨.identifier "n", start + 11⟩, ⟨.closeParen, start + 12⟩, ⟨.comma, start + 13⟩,
    ⟨.identifier "labels", start + 14⟩, ⟨.openParen, start + 20⟩, ⟨.identifier "n", start + 21⟩,
    ⟨.closeParen, start + 22⟩]

theorem lex_resultText (start : Nat) :
    Lexer.lexFrom start 0 resultText.toList = .ok (resultLexemes start) := rfl

/-- Column names are the texts of the result between its bytes. -/
theorem clauses_resultLexemes (front : List Char) (limit : Nat) :
    Parser.clauses (limit + 2) ⟨front ++ resultText.toList, resultLexemes (byteLength front)⟩ =
      .ok ([.result resultItems], ⟨front ++ resultText.toList, []⟩) := by
  have hid : Parser.slice (front ++ resultText.toList) (byteLength front + 8)
      (byteLength front + 13) = "id(n)" := by
    rw [Parser.slice_append]
    rfl
  have hlabels : Parser.slice (front ++ resultText.toList) (byteLength front + 14)
      (byteLength (front ++ resultText.toList)) = "labels(n)" := by
    rw [byteLength_append, Parser.slice_append]
    rfl
  rw [resultItems, ← hid, ← hlabels]
  rfl

theorem toList_statement (s : Search) :
    s.statement.toList = s.findText ++ resultText.toList := by
  rw [statement, findText, String.toList_append (t := resultText)]

theorem writable_comparison {p : SearchPredicate} (hvalue : p.value ≠ .int Int64.minValue) :
    p.comparison.Writable := by
  obtain ⟨target, comparator, value⟩ := p
  refine ⟨?_, ?_⟩
  · cases target <;> trivial
  · cases value with
    | int i => exact .int fun heq => hvalue (by rw [heq])
    | string s => exact .string s

theorem parse_statement {s : Search} (hparsed : ∀ p ∈ s.predicates, p.Parsed)
    (hvalues : ∀ p ∈ s.predicates, p.value ≠ .int Int64.minValue) :
    Script.parse s.statement = .ok [s.query] := by
  refine Script.parse_of_find s.toList_statement (lexes_findText hparsed hvalues ?_) ?_ ?_
    (lex_resultText _) ?_ (clauses_resultLexemes s.findText)
  · exact endsLiteral_cons (c := ' ') _ (by decide)
  · simp [Pattern.Writable, NodePattern.Writable, pattern]
  · intro c hc
    obtain ⟨p, hp, rfl⟩ := List.mem_map.mp hc
    exact writable_comparison (hvalues p hp)
  · simp [EndsClause, resultLexemes, clauseEnds]

theorem parse_statement_fault {s : Search} (hparsed : ∀ p ∈ s.predicates, p.Parsed)
    (hbad : ∃ p ∈ s.predicates, p.value = .int Int64.minValue) :
    ∃ e, Script.parse s.statement = .error e := by
  have hends : EndsLiteral resultText.toList := endsLiteral_cons (c := ' ') _ (by decide)
  obtain ⟨e, he⟩ := unlexable_findText hparsed hbad hends 0
  exact ⟨e, by rw [Script.parse, toList_statement, lex, he]; rfl⟩

theorem resolver_statement {arguments : Arguments} {text : String} (source : Option NodeRef)
    (h : Resolver.keywords arguments = .ok text) :
    Resolver.statement .search source arguments = .ok (some (Search.parse text).statement) := by
  rw [Resolver.statement, h]
  rfl

end Search

end FieldGraph
