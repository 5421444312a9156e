import FieldGraph.Proofs.Outcome
import FieldGraph.Proofs.Statement.Clauses
import FieldGraph.Proofs.Statement.Deriving

/-!
# Reading literals back

The literal of a value is read back as that value, with no token left over. The one exception is the
least integer, at whatever depth: its sign is a token of its own, and its digits alone do not fit.
-/
namespace FieldGraph

namespace Value

inductive Finite : Value → Prop
  | null : Finite .null
  | bool (b : Bool) : Finite (.bool b)
  | int (i : Int64) : Finite (.int i)
  | float (x : Finite64) : Finite (.float (.finite x))
  | string (s : String) : Finite (.string s)
  | list {items : List Value} (h : ∀ v ∈ items, Finite v) : Finite (.list items)

inductive HasInteger (i : Int64) : Value → Prop
  | here : HasInteger i (.int i)
  | item {items : List Value} {v : Value} (hmem : v ∈ items) (h : HasInteger i v) :
      HasInteger i (.list items)

theorem finite_list {items : List Value} : (Value.list items).Finite ↔ ∀ v ∈ items, v.Finite := by
  constructor
  · rintro (_ | _ | _ | _ | _ | h)
    exact h
  · exact .list

theorem hasInteger_list {i : Int64} {items : List Value} :
    HasInteger i (.list items) ↔ ∃ v ∈ items, HasInteger i v := by
  constructor
  · rintro (_ | ⟨hmem, h⟩)
    exact ⟨_, hmem, h⟩
  · rintro ⟨v, hmem, h⟩
    exact .item hmem h

/-- What a text is read as when it stands where a literal is expected, and the tokens after it. -/
def readLiteral (text : String) : Except SyntaxError (Value × List Lexeme) := do
  let lexemes ← lex text.toList
  let (value, rest) ← (do Parser.literal (← Parser.remaining)) ⟨text.toList, lexemes⟩
  return (value, rest.lexemes)

variable {v : Value}

theorem Finite.writable (hv : v.Finite) (h : ¬HasInteger Int64.minValue v) : v.Writable := by
  induction hv with
  | null => exact .null
  | bool b => exact .bool b
  | int i =>
    refine .int ?_
    rintro rfl
    exact h .here
  | float x => exact .float x
  | string s => exact .string s
  | list _ ih => exact .list fun v hv => ih v hv fun hleast => h (.item hv hleast)

/-- The least integer makes every literal that it occurs in unreadable. -/
theorem Finite.unlexable (hv : v.Finite) (h : HasInteger Int64.minValue v) {rest : List Char}
    (hrest : EndsLiteral rest) : Unlexable (v.literal.toList ++ rest) := by
  induction hv generalizing rest with
  | int i =>
    cases h
    exact Unlexable.minValue hrest
  | @list items hitems ih =>
    obtain ⟨v, hmem, hleast⟩ := hasInteger_list.mp h
    have hinner : Unlexable (", ".toList.intercalate (items.map fun v => v.literal.toList) ++
        (']' :: rest)) := by
      refine Unlexable.separated tokens Lexes.commaSpace endsLiteral_commaSpace ?_ ?_ ?_
      · intro w hw
        by_cases hleast : HasInteger Int64.minValue w
        · exact .inr fun rest hrest => ih w hw hleast hrest
        · exact .inl fun rest hrest => Lexes.literal ((hitems w hw).writable hleast) hrest
      · exact ⟨v, hmem, fun rest hrest => ih v hmem hleast hrest⟩
      · exact endsLiteral_cons rest (by decide)
    have hopen := Lexes.sign (c := '[') (t := .openBracket)
      (", ".toList.intercalate (items.map fun v => v.literal.toList) ++ (']' :: rest))
      (by simp [plainSigns])
    rw [toList_literal_list]
    simpa using Lexes.unlexable hopen hinner
  | _ => cases h

theorem Writable.readLiteral_eq (hv : v.Writable) : readLiteral v.literal = .ok (v, []) := by
  obtain ⟨lexemes, htokens, hlex⟩ := (Lexes.literal hv endsLiteral_nil).lex_eq
  have hread : Reads (do Parser.literal (← Parser.remaining)) (lexemes.map Lexeme.token) [] v := by
    rw [htokens]
    exact .remaining (.literal hv.spelled (by simp) [])
  have hall : (do Parser.literal (← Parser.remaining)) ⟨v.literal.toList, lexemes ++ []⟩ =
      .ok (v, ⟨v.literal.toList, []⟩) := hread.run v.literal.toList
  rw [List.append_nil] at hall
  rw [readLiteral, hlex]
  show (do Parser.literal (← Parser.remaining)) ⟨v.literal.toList, lexemes⟩ >>= _ = _
  rw [hall]
  rfl

/-- A literal that takes up its text is spelled by the tokens of the text. -/
theorem spelled_of_readLiteral {text : String}
    (h : readLiteral text = .ok (v, [])) :
    ∃ lexemes, lex text.toList = .ok lexemes ∧ v.Spelled (lexemes.map Lexeme.token) := by
  obtain ⟨lexemes, hlex, h⟩ := bind_eq_ok.mp h
  obtain ⟨⟨value, d⟩, hread, h⟩ := bind_eq_ok.mp h
  have hrest : d.lexemes = [] := congrArg Prod.snd (Except.ok.inj h)
  have hvalue : value = v := congrArg Prod.fst (Except.ok.inj h)
  have htakes : Takes (do Parser.literal (← Parser.remaining)) fun ts v => v.Spelled ts :=
    Takes.remaining fun n => Takes.literal n
  obtain ⟨ls, htook, hspelled⟩ := htakes hread
  have hall : lexemes = ls := by
    have := congrArg Cursor.lexemes htook
    simpa [hrest] using this
  exact ⟨lexemes, hlex, hall ▸ hvalue ▸ hspelled⟩

/-- A value with finite numbers is read back from its literal, and all of the literal is read, just
in case the least integer does not occur in it. Otherwise the literal is rejected. -/
theorem literal_read_back (hv : v.Finite) :
    (¬HasInteger Int64.minValue v → readLiteral v.literal = .ok (v, [])) ∧
      (HasInteger Int64.minValue v → ∃ e, readLiteral v.literal = .error e) := by
  constructor
  · intro hnone
    exact (hv.writable hnone).readLiteral_eq
  · intro hleast
    obtain ⟨e, he⟩ := hv.unlexable hleast endsLiteral_nil 0
    rw [List.append_nil] at he
    refine ⟨e, ?_⟩
    simp [readLiteral, lex, he, bind, Except.bind]

/-- A negative integer, a quote in a string, a negative zero and lists in lists. -/
theorem nested_list_read_back :
    readLiteral "[-7, ['it\\'s', -0.0], null]" =
        .ok (.list [.int (-7), .list [.string "it's", .float (.finite (.zero true))], .null], []) ∧
      ∃ e, readLiteral "[true, [-9223372036854775808]]" = .error e := by
  constructor
  · have hfinite : (Value.list [.int (-7),
        .list [.string "it's", .float (.finite (.zero true))], .null]).Finite := by
      simp [finite_list, Finite.int, Finite.string, Finite.float, Finite.null]
    have hnone : ¬HasInteger Int64.minValue (.list [.int (-7),
        .list [.string "it's", .float (.finite (.zero true))], .null]) := by
      simp only [hasInteger_list, List.exists_mem_cons_iff, List.not_mem_nil]
      rintro (h | (h | h | ⟨_, h, _⟩) | h | ⟨_, h, _⟩) <;> cases h
    have hread := (literal_read_back hfinite).1 hnone
    have htext : (Value.list [.int (-7),
        .list [.string "it's", .float (.finite (.zero true))], .null]).literal =
        "[-7, ['it\\'s', -0.0], null]" := by decide +kernel
    rw [← htext]
    exact hread
  · have hfinite : (Value.list [.bool true, .list [.int Int64.minValue]]).Finite := by
      simp [finite_list, Finite.int, Finite.bool]
    have hleast : HasInteger Int64.minValue (.list [.bool true, .list [.int Int64.minValue]]) :=
      .item (.tail _ (.head _)) (.item (.head _) .here)
    have hread := (literal_read_back hfinite).2 hleast
    have htext : (Value.list [.bool true, .list [.int Int64.minValue]]).literal =
        "[true, [-9223372036854775808]]" := by decide +kernel
    rw [← htext]
    exact hread

/-- The digits of the least integer alone are one more than 63 bits hold. -/
theorem literal_minValue_rejected :
    readLiteral (Value.int Int64.minValue).literal =
      .error ⟨.integerOutOfRange "9223372036854775808", 1⟩ := by
  rfl

end Value

end FieldGraph
