import FieldGraph.Proofs.Document.Compiled
import FieldGraph.Proofs.Statement.Clauses

/-!
# Reading compiled statements

The text of a compiled statement is read as a merge of the pattern that the statement stands for,
unless it has the least integer among its properties.
-/
namespace FieldGraph

theorem toUpper_of_isDigit {c : Char} (h : c.isDigit = true) : c.toUpper = c := by
  have hrange := Text.isDigit_iff.mp h
  unfold Char.toUpper
  rw [dif_neg]
  intro hlower
  have hlow : 97 ≤ c.toNat := hlower.1
  omega

theorem keyword?_of_isDigit {word : List Char} {c : Char} (hmem : c ∈ word)
    (hdigit : c.isDigit = true) : keyword? word = none := by
  have hspelled : ∀ text : String, String.ofList (word.map Char.toUpper) = text →
      c ∈ text.toList := by
    rintro _ rfl
    rw [String.toList_ofList]
    exact List.mem_map.mpr ⟨c, hmem, toUpper_of_isDigit hdigit⟩
  have hletters : ["MERGE", "MATCH", "WHERE", "RETURN", "AND", "CONTAINS", "TRUE", "FALSE",
      "NULL"].all (fun text => text.toList.all fun d => !d.isDigit) = true := by decide
  have hother : ∀ text ∈ ["MERGE", "MATCH", "WHERE", "RETURN", "AND", "CONTAINS", "TRUE",
      "FALSE", "NULL"], String.ofList (word.map Char.toUpper) ≠ text := by
    intro text htext heq
    have := List.all_eq_true.mp (List.all_eq_true.mp hletters text htext) c (hspelled text heq)
    simp [hdigit] at this
  unfold keyword?
  split
  case h_10 => rfl
  all_goals
    rename_i heq
    exact absurd heq (hother _ (by simp))

theorem isPlainIdentifier_variableOf (id : Nat) :
    isPlainIdentifier (Mutation.variableOf id) = true := by
  obtain ⟨d, ds, hd, hfirst⟩ := Layout.toDigits_eq_cons id
  have hword : (Mutation.variableOf id).toList = 'n' :: d :: ds := by
    simp [Mutation.variableOf, natText, hd]
  have hall : ∀ c ∈ d :: ds, Text.continuesIdentifier c = true := fun c hc =>
    Text.continuesIdentifier_of_isDigit (Layout.mem_toDigits_isDigit (n := id) (hd ▸ hc))
  have hkeyword : keyword? ('n' :: d :: ds) = none := keyword?_of_isDigit (by simp) hfirst
  rw [isPlainIdentifier, hword]
  simp only [hkeyword, Option.isNone_none, Bool.and_true, Bool.and_eq_true, List.all_eq_true]
  exact ⟨by decide, hall⟩

theorem variableOf_injective {i j : Nat} (h : Mutation.variableOf i = Mutation.variableOf j) :
    i = j := by
  have hdigits : Nat.toDigits 10 i = Nat.toDigits 10 j := by
    have := congrArg String.toList h
    simpa [Mutation.variableOf, natText] using this
  rw [← Numeral.ofDigits_toDigits i, hdigits, Numeral.ofDigits_toDigits]

namespace Mutation

def pattern? : Mutation → Option Pattern
  | .mergeNode id label properties => some ⟨⟨variableOf id, label, properties⟩, none⟩
  | .mergeEdge child edgeType parent =>
    some ⟨⟨variableOf child, none, []⟩,
      some (⟨none, edgeType, .outgoing⟩, ⟨variableOf parent, none, []⟩)⟩
  | .raw _ => none

def values : Mutation → List Value
  | .mergeNode _ _ properties => properties.map Prod.snd
  | _ => []

end Mutation

theorem writable_of_ofScalar? {json : Json} {value : Value}
    (h : Value.ofScalar? json = some value) (hne : value ≠ .int Int64.minValue) :
    value.Writable := by
  match json with
  | .null =>
    cases h
    exact .null
  | .bool b =>
    cases h
    exact .bool b
  | .integer n hrange =>
    cases h
    unfold Value.ofInteger at hne ⊢
    split at hne
    case isTrue hsmall =>
      rw [if_pos hsmall]
      exact .int fun heq => hne (by rw [heq])
    case isFalse hlarge =>
      have hhigh := hrange.2
      have hnat : n.natAbs < 2 ^ 64 := by omega
      have hbound : (n.natAbs : ℚ) < 2 ^ (1000 : Int) * (1 : Nat) := by
        have hcast : (n.natAbs : ℚ) < 2 ^ (64 : Int) := by exact_mod_cast hnat
        have hle : (2 : ℚ) ^ (64 : Int) ≤ 2 ^ (1000 : Int) :=
          zpow_le_zpow_right₀ (by norm_num) (by norm_num)
        rw [Nat.cast_one, mul_one]
        exact lt_of_lt_of_le hcast hle
      obtain ⟨x, hx⟩ := Binary64.ofRatio_finite (decide (n < 0)) Nat.one_pos hbound
      rw [if_neg hlarge, Binary64.ofInt, hx]
      exact .float x
  | .float x =>
    cases h
    exact .float x
  | .string s =>
    cases h
    exact .string s
  | .array _ => cases h
  | .object _ => cases h

theorem Lexes.colonSpace (rest : List Char) : Lexes ": ".toList rest [.colon] :=
  ofText [':', ' '] rfl (Lexes.cons (Lexes.sign _ (by simp [plainSigns])) (Lexes.space rest))

theorem endsWord_colonSpace (rest : List Char) : EndsWord (": ".toList ++ rest) := by
  have htext : ": ".toList = [':', ' '] := rfl
  rw [htext]
  exact endsWord_cons _ (by decide)

theorem Lexes.property {property : String × Value} (hkey : isPlainIdentifier property.1 = true)
    (hvalue : property.2.Writable) {rest : List Char} (hrest : EndsLiteral rest) :
    Lexes (Mutation.propertyText property).toList rest (propertyTokens property) := by
  rw [Mutation.propertyText, String.toList_append, String.toList_append, List.append_assoc]
  refine Lexes.append (Lexes.identifier hkey ?_)
    (Lexes.append (Lexes.colonSpace _) (Lexes.literal hvalue hrest))
  rw [List.append_assoc]
  exact endsWord_colonSpace _

theorem Unlexable.property {key : String} (hkey : isPlainIdentifier key = true)
    {rest : List Char} (hrest : EndsLiteral rest) :
    Unlexable ((Mutation.propertyText (key, .int Int64.minValue)).toList ++ rest) := by
  rw [Mutation.propertyText, String.toList_append, String.toList_append, List.append_assoc,
    List.append_assoc]
  exact Lexes.unlexable (Lexes.identifier hkey (endsWord_colonSpace _))
    (Lexes.unlexable (Lexes.colonSpace _) (Unlexable.minValue hrest))

theorem Lexes.mergeOpen (rest : List Char) :
    Lexes "MERGE (".toList rest [.keyword .mergeWord, .openParen] := by
  refine ofText (['M', 'E', 'R', 'G', 'E'] ++ [' ', '(']) rfl (Lexes.append
    (Lexes.keyword (by decide) (by decide) (by decide) ?_)
    (Lexes.cons (Lexes.space _) (Lexes.sign rest (by simp [plainSigns]))))
  exact endsWord_cons _ (by decide)

theorem Lexes.nodeVariable (id : Nat) {rest : List Char} (hrest : EndsWord rest) :
    Lexes (Mutation.variableOf id).toList rest [.identifier (Mutation.variableOf id)] :=
  Lexes.identifier (isPlainIdentifier_variableOf id) hrest

namespace Mutation

theorem toList_text_mergeNode (id : Nat) (label : String) (properties : List (String × Value)) :
    (mergeNode id label properties).text.toList =
      "MERGE (".toList ++ ((variableOf id).toList ++ (":".toList ++ (label.toList ++
        (" \x7b".toList ++ (", ".toList.intercalate
          (properties.map fun p => (propertyText p).toList) ++ "\x7d)\n".toList))))) := by
  unfold text
  simp only [String.toList_append, List.append_assoc, String.toList_intercalate, List.map_map]
  rfl

theorem toList_text_mergeEdge (child : Nat) (edgeType : String) (parent : Nat) :
    (mergeEdge child edgeType parent).text.toList =
      "MERGE (".toList ++ ((variableOf child).toList ++ (")-[:".toList ++ (edgeType.toList ++
        ("]->(".toList ++ ((variableOf parent).toList ++ ")\n".toList))))) := by
  unfold text
  simp only [String.toList_append, List.append_assoc]

end Mutation

namespace Lexes

theorem labelOpen (rest : List Char) : Lexes ":".toList rest [.colon] :=
  ofText [':'] rfl (sign rest (by simp [plainSigns]))

theorem propertiesOpen (rest : List Char) : Lexes " \x7b".toList rest [.openBrace] :=
  ofText [' ', '\x7b'] rfl (cons (space _) (sign rest (by simp [plainSigns])))

theorem nodeClose (rest : List Char) : Lexes "\x7d)\n".toList rest [.closeBrace, .closeParen] :=
  ofText ['\x7d', ')', '\n'] rfl (cons (sign _ (by simp [plainSigns]))
    (cons (sign _ (by simp [plainSigns])) (blank rest (by decide))))

theorem edgeOpen (rest : List Char) :
    Lexes ")-[:".toList rest [.closeParen, .dash, .openBracket, .colon] :=
  ofText [')', '-', '[', ':'] rfl (cons (sign _ (by simp [plainSigns]))
    (cons (dash (by simp)) (cons (sign _ (by simp [plainSigns]))
      (sign rest (by simp [plainSigns])))))

theorem edgeClose (rest : List Char) :
    Lexes "]->(".toList rest [.closeBracket, .rightArrow, .openParen] :=
  ofText ([']'] ++ (['-', '>'] ++ ['('])) rfl (append (sign _ (by simp [plainSigns]))
    (append (rightArrow _) (sign rest (by simp [plainSigns]))))

theorem parentClose (rest : List Char) : Lexes ")\n".toList rest [.closeParen] :=
  ofText [')', '\n'] rfl (cons (sign _ (by simp [plainSigns])) (blank rest (by decide)))

theorem nodeOpen (id : Nat) {label : String} (hlabel : isPlainIdentifier label = true)
    (rest : List Char) :
    Lexes ("MERGE (".toList ++ ((Mutation.variableOf id).toList ++ (":".toList ++ (label.toList ++
      " \x7b".toList)))) rest
      [.keyword .mergeWord, .openParen, .identifier (Mutation.variableOf id), .colon,
        .identifier label, .openBrace] := by
  refine append (mergeOpen _) (append (nodeVariable id ?_) (append (labelOpen _)
    (append (identifier hlabel ?_) (propertiesOpen rest))))
  · exact endsWord_cons (c := ':') _ (by decide)
  · exact endsWord_cons (c := ' ') _ (by decide)

theorem mergeNode (id : Nat) {label : String} {properties : List (String × Value)}
    (hlabel : isPlainIdentifier label = true) (hne : properties ≠ [])
    (hkeys : ∀ p ∈ properties, isPlainIdentifier p.1 = true)
    (hvalues : ∀ p ∈ properties, p.2.Writable) (rest : List Char) :
    Lexes (Mutation.mergeNode id label properties).text.toList rest
      (mergeTokens ⟨⟨Mutation.variableOf id, label, properties⟩, none⟩) := by
  have hends : EndsLiteral ("\x7d)\n".toList ++ rest) :=
    endsLiteral_cons (c := '\x7d') _ (by decide)
  have hproperties := separated properties _ _ commaSpace endsLiteral_commaSpace
    (fun p hp rest hrest => property (hkeys p hp) (hvalues p hp) hrest) hends
  have htokens : propertiesTokens properties =
      .openBrace :: ([Token.comma].intercalate (properties.map propertyTokens) ++
        [.closeBrace]) := by
    cases properties with
    | nil => exact absurd rfl hne
    | cons => rfl
  have hall := append (nodeOpen id hlabel _) (append hproperties (nodeClose rest))
  rw [Mutation.toList_text_mergeNode, mergeTokens, Pattern.tokens, NodePattern.tokens, htokens]
  simpa [nameTokens, tagTokens] using hall

theorem mergeEdge (child parent : Nat) {edgeType : String}
    (htype : isPlainIdentifier edgeType = true) (rest : List Char) :
    Lexes (Mutation.mergeEdge child edgeType parent).text.toList rest
      (mergeTokens ⟨⟨Mutation.variableOf child, none, []⟩,
        some (⟨none, edgeType, .outgoing⟩, ⟨Mutation.variableOf parent, none, []⟩)⟩) := by
  rw [Mutation.toList_text_mergeEdge]
  refine append (mergeOpen _) (append (nodeVariable child ?_) (append (edgeOpen _)
    (append (identifier htype ?_) (append (edgeClose _) (append (nodeVariable parent ?_)
      (parentClose rest))))))
  · exact endsWord_cons (c := ')') _ (by decide)
  · exact endsWord_cons (c := ']') _ (by decide)
  · exact endsWord_cons (c := ')') _ (by decide)

end Lexes

/-- The least integer makes the statement that holds it unreadable. -/
theorem Unlexable.mergeNode (id : Nat) {label : String} {properties : List (String × Value)}
    (hlabel : isPlainIdentifier label = true)
    (hkeys : ∀ p ∈ properties, isPlainIdentifier p.1 = true)
    (hvalues : ∀ p ∈ properties, p.2 ≠ .int Int64.minValue → p.2.Writable)
    (hbad : ∃ p ∈ properties, p.2 = .int Int64.minValue) (rest : List Char) :
    Unlexable ((Mutation.mergeNode id label properties).text.toList ++ rest) := by
  have hfault : ∀ p ∈ properties, p.2 = .int Int64.minValue → ∀ rest, EndsLiteral rest →
      Unlexable ((Mutation.propertyText p).toList ++ rest) := by
    intro p hp hvalue rest hrest
    obtain ⟨key, value⟩ := p
    rw [show value = .int Int64.minValue from hvalue]
    exact Unlexable.property (hkeys _ hp) hrest
  have hproperties : Unlexable
      (", ".toList.intercalate (properties.map fun p => (Mutation.propertyText p).toList) ++
        ("\x7d)\n".toList ++ rest)) := by
    refine Unlexable.separated propertyTokens Lexes.commaSpace endsLiteral_commaSpace ?_ ?_ ?_
    · intro p hp
      by_cases hvalue : p.2 = .int Int64.minValue
      · exact .inr (hfault p hp hvalue)
      · exact .inl fun rest hrest => Lexes.property (hkeys p hp) (hvalues p hp hvalue) hrest
    · obtain ⟨p, hp, hvalue⟩ := hbad
      exact ⟨p, hp, hfault p hp hvalue⟩
    · exact endsLiteral_cons (c := '\x7d') _ (by decide)
  have hall := Lexes.unlexable (Lexes.nodeOpen id hlabel _) hproperties
  rw [Mutation.toList_text_mergeNode]
  simpa using hall

namespace Mutation

variable {objects : List (List (String × Json))} {m : Mutation}

/-- A compiled statement without the least integer is read as a merge of its pattern. -/
theorem Compiled.lexes (h : m.Compiled objects) (hvalues : .int Int64.minValue ∉ m.values) :
    ∃ p, m.pattern? = some p ∧ p.Writable ∧
      ∀ rest, Lexes m.text.toList rest (mergeTokens p) := by
  cases h with
  | @node id label fields properties hfields hproperties hne hlabel =>
    have hkeys : ∀ p ∈ properties, isPlainIdentifier p.1 = true := fun p hp =>
      (mem_propertiesOf hproperties hp).1
    have hwritable : ∀ p ∈ properties, p.2.Writable := by
      intro p hp
      obtain ⟨_, json, _, _, hscalar⟩ := mem_propertiesOf hproperties hp
      refine writable_of_ofScalar? hscalar fun heq => hvalues ?_
      exact List.mem_map.mpr ⟨p, hp, heq⟩
    exact ⟨_, rfl, ⟨hwritable, by simp⟩, Lexes.mergeNode id hlabel hne hkeys hwritable⟩
  | edge htype =>
    refine ⟨_, rfl, ⟨by simp [NodePattern.Writable], ?_⟩, Lexes.mergeEdge _ _ htype⟩
    intro hop hhop
    cases hhop
    simp [NodePattern.Writable]

theorem Compiled.unlexable (h : m.Compiled objects) (hvalues : .int Int64.minValue ∈ m.values)
    (rest : List Char) : Unlexable (m.text.toList ++ rest) := by
  cases h with
  | @node id label fields properties hfields hproperties hne hlabel =>
    obtain ⟨p, hp, hvalue⟩ := List.mem_map.mp hvalues
    refine Unlexable.mergeNode id hlabel (fun p hp => (mem_propertiesOf hproperties hp).1) ?_
      ⟨p, hp, hvalue⟩ rest
    intro p hp hne
    obtain ⟨_, json, _, _, hscalar⟩ := mem_propertiesOf hproperties hp
    exact writable_of_ofScalar? hscalar hne
  | edge htype => cases hvalues

end Mutation

end FieldGraph
