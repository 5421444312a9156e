import FieldGraph.Proofs.Search.Results

/-!
# The statements of resolvers

With plain names, the text that a resolver sends is read as one find and one result, whatever node
it is sent for. The number of a node that does not fit 63 bits makes it unreadable.
-/
namespace FieldGraph

namespace Resolver

/-- Whether all names in a resolver can stand in a statement without backticks. -/
def Plain : Resolver → Prop
  | .identity => True
  | .property field => isPlainIdentifier field = true
  | .relation _ edgeType _ targetLabel =>
    (∀ name ∈ edgeType, isPlainIdentifier name = true) ∧
      ∀ name ∈ targetLabel, isPlainIdentifier name = true
  | .search => True
  | .collection label => isPlainIdentifier label = true

instance (r : Resolver) : Decidable r.Plain := by
  cases r <;> unfold Plain <;> infer_instance

def targetVariable : String := "r"

def sourceIs (id : Nat) : Comparison :=
  ⟨.id searchVariable, .equals, .literal (.int (Int64.ofNat id))⟩

def relationPattern (edgeType : Option String) (direction : Direction)
    (targetLabel : Option String) : Pattern :=
  ⟨⟨searchVariable, none, []⟩,
    some (⟨none, edgeType, direction⟩, ⟨targetVariable, targetLabel, []⟩)⟩

def collectionPattern (label : String) : Pattern := ⟨⟨searchVariable, label, []⟩, none⟩

def sourceTokens : List Token :=
  [.keyword .whereWord, .identifier "id", .openParen, .identifier searchVariable, .closeParen,
    .equals]

def relationText (edgeType : Option String) (direction : Direction)
    (targetLabel : Option String) : List Char :=
  "MATCH (n".toList ++ ([')'] ++ ((direction.leftArrow ++ "-[").toList ++
    ((tagText edgeType).toList ++ ([']'] ++ (("-" ++ direction.rightArrow ++ "(r").toList ++
      ((tagText targetLabel).toList ++ ") WHERE id(n)=".toList))))))

theorem filterTokens_sourceIs (id : Nat) :
    filterTokens [sourceIs id] = sourceTokens ++ (Value.int (Int64.ofNat id)).tokens := by
  simp [filterTokens, sourceIs, sourceTokens, Comparison.tokens, Operand.tokens,
    ComparisonOp.token]

end Resolver

open Resolver

namespace Lexes

theorem leftArrow (rest : List Char) : Lexes ['<', '-'] rest [.leftArrow] :=
  Lexes.token (by decide) rfl

theorem findOpen {rest : List Char} (hrest : EndsWord rest) :
    Lexes "MATCH (n".toList rest
      [.keyword .matchWord, .openParen, .identifier FieldGraph.searchVariable] := by
  refine ofText (['M', 'A', 'T', 'C', 'H'] ++ (' ' :: '(' :: ['n'])) rfl ?_
  refine append (keyword (by decide) (by decide) (by decide) (endsWord_cons _ (by decide))) ?_
  exact cons (space _) (cons (sign _ (by simp [plainSigns])) (searchVariable hrest))

theorem tag {name : Option String} (h : ∀ n ∈ name, isPlainIdentifier n = true)
    {rest : List Char} (hrest : EndsWord rest) :
    Lexes (tagText name).toList rest (tagTokens name) := by
  cases name with
  | none => exact nil rest
  | some name =>
    rw [tagText, String.toList_append]
    exact append (ofText [':'] rfl (sign _ (by simp [plainSigns]))) (identifier (h name rfl) hrest)

theorem relationOpen (direction : Direction) (rest : List Char) :
    Lexes (direction.leftArrow ++ "-[").toList rest
      [RelationshipPattern.startToken ⟨none, none, direction⟩, .openBracket] := by
  have hbracket : Lexes ['['] rest [.openBracket] := sign rest (by simp [plainSigns])
  cases direction with
  | outgoing => exact ofText (['-'] ++ ['[']) rfl (append (dash (by simp)) hbracket)
  | incoming => exact ofText (['<', '-'] ++ ['[']) rfl (append (leftArrow _) hbracket)
  | both => exact ofText (['-'] ++ ['[']) rfl (append (dash (by simp)) hbracket)

theorem relationClose (direction : Direction) {rest : List Char} (hrest : EndsWord rest) :
    Lexes ("-" ++ direction.rightArrow ++ "(r").toList rest
      [RelationshipPattern.endToken ⟨none, none, direction⟩, .openParen,
        .identifier targetVariable] := by
  have htarget : Lexes ('(' :: ['r']) rest [.openParen, .identifier targetVariable] :=
    cons (sign _ (by simp [plainSigns])) (@identifier targetVariable rest (by decide) hrest)
  cases direction with
  | outgoing => exact ofText (['-', '>'] ++ ('(' :: ['r'])) rfl (append (rightArrow _) htarget)
  | incoming => exact ofText (['-'] ++ ('(' :: ['r'])) rfl (append (dash (by simp)) htarget)
  | both => exact ofText (['-'] ++ ('(' :: ['r'])) rfl (append (dash (by simp)) htarget)

theorem sourceOpen (rest : List Char) :
    Lexes ") WHERE id(n)=".toList rest (.closeParen :: sourceTokens) := by
  refine ofText (')' :: ' ' :: ("WHERE ".toList ++ (['i', 'd'] ++ ('(' :: (['n'] ++ [')', '='])))))
    rfl ?_
  refine cons (sign _ (by simp [plainSigns])) (cons (space _) (append (whereWord _) ?_))
  refine append (@identifier "id" _ (by decide) (endsWord_cons _ (by decide))) ?_
  refine cons (sign _ (by simp [plainSigns])) (append
    (searchVariable (endsWord_cons _ (by decide))) ?_)
  exact cons (sign _ (by simp [plainSigns])) (sign rest (by simp [plainSigns]))

theorem returnWord (rest : List Char) :
    Lexes " RETURN ".toList rest [.keyword .returnWord] := by
  refine ofText (' ' :: (['R', 'E', 'T', 'U', 'R', 'N'] ++ [' '])) rfl ?_
  refine cons (space _) (append (keyword (by decide) (by decide) (by decide) ?_) (space rest))
  exact endsWord_cons _ (by decide)

theorem relation {edgeType targetLabel : Option String}
    (htype : ∀ name ∈ edgeType, isPlainIdentifier name = true)
    (hlabel : ∀ name ∈ targetLabel, isPlainIdentifier name = true) (direction : Direction)
    (rest : List Char) :
    Lexes (relationText edgeType direction targetLabel) rest
      (.keyword .matchWord ::
        ((relationPattern edgeType direction targetLabel).tokens ++ sourceTokens)) := by
  have htag : EndsWord ((tagText targetLabel).toList ++ ") WHERE id(n)=".toList ++ rest) := by
    cases targetLabel with
    | none => exact endsWord_cons (c := ')') _ (by decide)
    | some label =>
      rw [tagText, String.toList_append]
      exact endsWord_cons (c := ':') _ (by decide)
  have htokens : .keyword .matchWord ::
      ((relationPattern edgeType direction targetLabel).tokens ++ sourceTokens) =
        [.keyword .matchWord, .openParen, .identifier FieldGraph.searchVariable] ++
          ([.closeParen] ++
            ([RelationshipPattern.startToken ⟨none, none, direction⟩, .openBracket] ++
              (tagTokens edgeType ++ ([.closeBracket] ++
                ([RelationshipPattern.endToken ⟨none, none, direction⟩, .openParen,
                  .identifier targetVariable] ++ (tagTokens targetLabel ++
                    .closeParen :: sourceTokens)))))) := by
    simp [relationPattern, Pattern.tokens, NodePattern.tokens, RelationshipPattern.tokens,
      RelationshipPattern.startToken, RelationshipPattern.endToken, nameTokens, tagTokens,
      propertiesTokens]
  rw [htokens]
  unfold relationText
  refine append (findOpen (endsWord_cons (c := ')') _ (by decide))) (append ?_ ?_)
  · exact sign _ (by simp [plainSigns])
  refine append (relationOpen direction _) (append (tag htype ?_) (append ?_ ?_))
  · exact endsWord_cons (c := ']') _ (by decide)
  · exact sign _ (by simp [plainSigns])
  refine append (relationClose direction htag) (append (tag hlabel ?_) (sourceOpen rest))
  exact endsWord_cons (c := ')') _ (by decide)

end Lexes

theorem Resolver.writable_sourceIs {id : Nat} (hid : id < 0x8000000000000000) :
    (sourceIs id).Writable := by
  refine ⟨trivial, .int fun heq => ?_⟩
  have hnum := congrArg Int64.toInt heq
  rw [toInt_ofNat_of_lt hid] at hnum
  have hmin : Int64.minValue.toInt = -0x8000000000000000 := rfl
  omega

theorem Lexes.sourceNumber {id : Nat} (hid : id < 0x8000000000000000) {rest : List Char}
    (hrest : EndsLiteral rest) :
    Lexes (Nat.toDigits 10 id) rest (Value.int (Int64.ofNat id)).tokens := by
  have hpos : ¬(Int64.ofNat id).toInt < 0 := by
    rw [toInt_ofNat_of_lt hid]
    omega
  -- A number without a sign is one token.
  rw [Value.tokens, if_neg hpos]
  exact Lexes.natural hid hrest

namespace Resolver

variable {id : Nat}

def propertyText : List Char := "MATCH (n".toList ++ ") WHERE id(n)=".toList

theorem lexes_propertyText (rest : List Char) :
    Lexes propertyText rest (.keyword .matchWord :: (Search.pattern.tokens ++ sourceTokens)) :=
  Lexes.append (Lexes.findOpen (endsWord_cons (c := ')') _ (by decide))) (Lexes.sourceOpen rest)

theorem lexes_propertyResult {field : String} (hfield : isPlainIdentifier field = true) :
    Lexes (" RETURN n.".toList ++ field.toList) []
      (.keyword .returnWord :: (Operand.property searchVariable field).tokens) := by
  have hopen : Lexes " RETURN n.".toList (field.toList ++ [])
      [.keyword .returnWord, .identifier searchVariable, .dot] := by
    refine Lexes.ofText (" RETURN ".toList ++ (['n'] ++ ['.'])) rfl ?_
    refine Lexes.append (Lexes.returnWord _) (Lexes.append (Lexes.searchVariable ?_) ?_)
    · exact endsWord_cons _ (by decide)
    · exact Lexes.sign _ (by simp [plainSigns])
  exact Lexes.append hopen (Lexes.identifier hfield endsLiteral_nil.endsWord)

theorem lexes_idResult {name : String} (hname : isPlainIdentifier name = true) :
    Lexes (" RETURN id(".toList ++ (name.toList ++ [')'])) []
      (.keyword .returnWord :: (Operand.id name).tokens) := by
  have hopen : Lexes " RETURN id(".toList (name.toList ++ [')'] ++ [])
      [.keyword .returnWord, .identifier "id", .openParen] := by
    refine Lexes.ofText (" RETURN ".toList ++ (['i', 'd'] ++ ['('])) rfl ?_
    refine Lexes.append (Lexes.returnWord _) (Lexes.append (@Lexes.identifier "id" _ ?_ ?_) ?_)
    · decide
    · exact endsWord_cons _ (by decide)
    · exact Lexes.sign _ (by simp [plainSigns])
  refine Lexes.append hopen (Lexes.append (Lexes.identifier hname ?_) (Lexes.sign [] ?_))
  · exact endsWord_cons _ (by decide)
  · simp [plainSigns]

/-- A text about a source is read as what comes before the number of the source says. -/
theorem parse_of_source {text : String} {front tail : List Char} {p : Pattern} {o : Operand}
    (htext : text.toList = front ++ (Nat.toDigits 10 id ++ tail))
    (hfront : ∀ rest, Lexes front rest (.keyword .matchWord :: (p.tokens ++ sourceTokens)))
    (hp : p.Writable) (ho : o.Writable)
    (hends : EndsLiteral tail) (htail : Lexes tail [] (.keyword .returnWord :: o.tokens)) :
    (id < 0x8000000000000000 →
      ∃ column, Script.parse text = .ok [[.find p [sourceIs id], .result [⟨.value o, column⟩]]]) ∧
      (0x8000000000000000 ≤ id → ∃ e, Script.parse text = .error e) := by
  constructor
  · intro hid
    have hall := Lexes.append (hfront _) (Lexes.sourceNumber hid hends)
    have htokens : (.keyword .matchWord :: (p.tokens ++ sourceTokens)) ++
        (Value.int (Int64.ofNat id)).tokens = findTokens p [sourceIs id] := by
      simp [findTokens, filterTokens_sourceIs]
    rw [htokens] at hall
    apply Script.parse_of_find_value (by simpa using htext) hall hp _ ho htail
    simpa using writable_sourceIs hid
  · intro hid
    have hall := Lexes.unlexable (hfront _) (Unlexable.natural hid hends)
    obtain ⟨e, he⟩ := hall 0
    exact ⟨e, by rw [Script.parse, htext, lex, he]; rfl⟩

theorem parse_property {field : String} (hfield : isPlainIdentifier field = true)
    {source : Option NodeRef} {arguments : Arguments} {text : String}
    (h : statement (.property field) source arguments = .ok (some text)) :
    ∃ node, source = some node ∧
      (node.id < 0x8000000000000000 → ∃ column, Script.parse text =
        .ok [[.find Search.pattern [sourceIs node.id],
          .result [⟨.value (.property searchVariable field), column⟩]]]) ∧
      (0x8000000000000000 ≤ node.id → ∃ e, Script.parse text = .error e) := by
  cases source with
  | none => cases h
  | some node =>
    cases h
    have htext : ("MATCH (n) WHERE id(n)=" ++ natText node.id ++ " RETURN n." ++ field).toList =
        propertyText ++ (Nat.toDigits 10 node.id ++ (" RETURN n.".toList ++ field.toList)) := by
      have hopen : "MATCH (n) WHERE id(n)=".toList = propertyText := rfl
      have hnumber : (natText node.id).toList = Nat.toDigits 10 node.id := String.toList_ofList
      simp only [String.toList_append, hopen, hnumber, List.append_assoc]
    have hpattern : Search.pattern.Writable := by
      simp [Search.pattern, Pattern.Writable, NodePattern.Writable]
    have hends : EndsLiteral (" RETURN n.".toList ++ field.toList) :=
      endsLiteral_cons (c := ' ') _ (by decide)
    exact ⟨node, rfl, parse_of_source htext lexes_propertyText hpattern trivial hends
      (lexes_propertyResult hfield)⟩

theorem parse_relation {edgeType targetLabel : Option String} {multiplicity : Multiplicity}
    {direction : Direction} (hplain : Plain (.relation multiplicity edgeType direction targetLabel))
    {source : Option NodeRef} {arguments : Arguments} {text : String}
    (h : statement (.relation multiplicity edgeType direction targetLabel) source arguments =
      .ok (some text)) :
    ∃ node, source = some node ∧
      (node.id < 0x8000000000000000 → ∃ column, Script.parse text =
        .ok [[.find (relationPattern edgeType direction targetLabel) [sourceIs node.id],
          .result [⟨.value (.id targetVariable), column⟩]]]) ∧
      (0x8000000000000000 ≤ node.id → ∃ e, Script.parse text = .error e) := by
  cases source with
  | none => cases h
  | some node =>
    cases h
    have htext : ("MATCH (n)" ++ direction.leftArrow ++ "-[" ++ tagText edgeType ++ "]-" ++
        direction.rightArrow ++ "(r" ++ tagText targetLabel ++ ") WHERE id(n)=" ++
        natText node.id ++ " RETURN id(r)").toList =
        relationText edgeType direction targetLabel ++ (Nat.toDigits 10 node.id ++
          (" RETURN id(".toList ++ (targetVariable.toList ++ [')']))) := by
      have hopen : "MATCH (n)".toList = "MATCH (n".toList ++ [')'] := rfl
      have hbracket : "]-".toList = [']'] ++ "-".toList := rfl
      have hresult : " RETURN id(r)".toList =
        " RETURN id(".toList ++ (targetVariable.toList ++ [')']) := rfl
      have hnumber : (natText node.id).toList = Nat.toDigits 10 node.id := String.toList_ofList
      unfold relationText
      simp only [String.toList_append, hopen, hbracket, hresult, hnumber, List.append_assoc]
    have hpattern : (relationPattern edgeType direction targetLabel).Writable := by
      simp [relationPattern, Pattern.Writable, NodePattern.Writable]
    have hends : EndsLiteral (" RETURN id(".toList ++ (targetVariable.toList ++ [')'])) :=
      endsLiteral_cons (c := ' ') _ (by decide)
    exact ⟨node, rfl, parse_of_source htext (Lexes.relation hplain.1 hplain.2 direction) hpattern
      trivial hends (@lexes_idResult targetVariable (by decide))⟩

theorem parse_collection {label : String} (hlabel : isPlainIdentifier label = true) :
    ∃ column, Script.parse ("MATCH (n:" ++ label ++ ") RETURN id(n)") =
      .ok [[.find (collectionPattern label) [],
        .result [⟨.value (.id searchVariable), column⟩]]] := by
  have hfront : Lexes ("MATCH (n".toList ++ ((tagText label).toList ++ [')']))
      (" RETURN id(".toList ++ (searchVariable.toList ++ [')']))
      (findTokens (collectionPattern label) []) := by
    have htokens : findTokens (collectionPattern label) [] =
        [.keyword .matchWord, .openParen, .identifier searchVariable] ++
          (tagTokens label ++ [.closeParen]) := by
      simp [findTokens, collectionPattern, Pattern.tokens, NodePattern.tokens, nameTokens,
        propertiesTokens, filterTokens]
    have htag : EndsWord ((tagText label).toList ++ [')'] ++
        (" RETURN id(".toList ++ (searchVariable.toList ++ [')']))) := by
      rw [tagText, String.toList_append]
      exact endsWord_cons (c := ':') _ (by decide)
    rw [htokens]
    refine Lexes.append (Lexes.findOpen htag) (Lexes.append (Lexes.tag ?_ ?_) (Lexes.sign _ ?_))
    · simpa using hlabel
    · exact endsWord_cons (c := ')') _ (by decide)
    · simp [plainSigns]
  refine Script.parse_of_find_value ?_ hfront ?_ (by simp) trivial
    (@lexes_idResult searchVariable (by decide))
  · have hopen : "MATCH (n:".toList = "MATCH (n".toList ++ ":".toList := rfl
    have hresult : ") RETURN id(n)".toList =
      [')'] ++ (" RETURN id(".toList ++ (searchVariable.toList ++ [')'])) := rfl
    simp only [tagText, String.toList_append, hopen, hresult, List.append_assoc]
  · simp [collectionPattern, Pattern.Writable, NodePattern.Writable]

end Resolver

end FieldGraph
