import FieldGraph.Proofs.Statement.Tokens

/-!
# Literals of values

The literal of a value is read as the tokens of that value, unless an integer in it has no literal
that the lexer can read.
-/
namespace FieldGraph

/-- Texts with a separator between them are read one after another. -/
theorem Lexes.separated {α : Type} (items : List α) (text : α → List Char)
    (tokens : α → List Token) {sep : List Char} {sepTokens : List Token}
    (hsep : ∀ rest, Lexes sep rest sepTokens) (hends : ∀ rest, EndsLiteral (sep ++ rest))
    (hitems : ∀ a ∈ items, ∀ rest, EndsLiteral rest → Lexes (text a) rest (tokens a))
    {rest : List Char} (hrest : EndsLiteral rest) :
    Lexes (sep.intercalate (items.map text)) rest
      (sepTokens.intercalate (items.map tokens)) := by
  induction items with
  | nil => exact Lexes.nil rest
  | cons a items ih =>
    have htail := ih fun b hb => hitems b (List.mem_cons_of_mem _ hb)
    cases items with
    | nil =>
      simp only [List.map_cons, List.map_nil, List.intercalate_singleton]
      exact hitems a List.mem_cons_self rest hrest
    | cons b items =>
      simp only [List.map_cons] at htail
      simp only [List.map_cons, List.intercalate_cons_cons, List.append_assoc]
      refine Lexes.append (hitems a List.mem_cons_self _ ?_) (Lexes.append (hsep _) htail)
      rw [List.append_assoc]
      exact hends _

theorem Unlexable.separated {α : Type} {text : α → List Char} (tokens : α → List Token)
    {sep : List Char} {sepTokens : List Token} {items : List α}
    (hsep : ∀ rest, Lexes sep rest sepTokens) (hends : ∀ rest, EndsLiteral (sep ++ rest))
    (hitems : ∀ a ∈ items, (∀ rest, EndsLiteral rest → Lexes (text a) rest (tokens a)) ∨
      ∀ rest, EndsLiteral rest → Unlexable (text a ++ rest))
    (hbad : ∃ a ∈ items, ∀ rest, EndsLiteral rest → Unlexable (text a ++ rest))
    {rest : List Char} (hrest : EndsLiteral rest) :
    Unlexable (sep.intercalate (items.map text) ++ rest) := by
  induction items with
  | nil => simp at hbad
  | cons a items ih =>
    cases items with
    | nil =>
      obtain ⟨b, hb, hbad⟩ := hbad
      rw [List.mem_singleton.mp hb] at hbad
      simpa using hbad rest hrest
    | cons b items =>
      simp only [List.map_cons, List.intercalate_cons_cons, List.append_assoc]
      rcases hitems a List.mem_cons_self with hgood | hfault
      · have hlater : ∃ c ∈ b :: items, ∀ rest, EndsLiteral rest → Unlexable (text c ++ rest) := by
          obtain ⟨c, hc, hbad⟩ := hbad
          rcases List.mem_cons.mp hc with rfl | hc
          · -- The first text is readable as well, so it cannot be the only fault.
            obtain ⟨ls, _, hread⟩ := hgood [] endsLiteral_nil 0
            obtain ⟨e, he⟩ := hbad [] endsLiteral_nil 0
            rw [he] at hread
            simp [Lexer.lexFrom, Except.map] at hread
          · exact ⟨c, hc, hbad⟩
        have htail := ih (fun c hc => hitems c (List.mem_cons_of_mem _ hc)) hlater
        simp only [List.map_cons] at htail
        exact Lexes.unlexable (hgood _ (hends _)) (Lexes.unlexable (hsep _) htail)
      · exact hfault _ (hends _)

theorem Lexes.commaSpace (rest : List Char) : Lexes ", ".toList rest [.comma] :=
  ofText [',', ' '] rfl (Lexes.cons (Lexes.sign _ (by simp [plainSigns])) (Lexes.space rest))

theorem endsLiteral_commaSpace (rest : List Char) : EndsLiteral (", ".toList ++ rest) := by
  have htext : ", ".toList = [',', ' '] := rfl
  rw [htext]
  exact endsLiteral_cons _ (by decide)

namespace Int64

theorem ofNat_natAbs_of_nonneg {i : Int64} (h : 0 ≤ i.toInt) : Int64.ofNat i.toInt.natAbs = i := by
  rw [← Int64.ofInt_eq_ofNat, Int.natAbs_of_nonneg h, Int64.ofInt_toInt]

theorem ofNat_natAbs_of_neg {i : Int64} (h : i.toInt < 0) :
    Int64.ofNat i.toInt.natAbs = -i := by
  have habs : (i.toInt.natAbs : Int) = -i.toInt := by omega
  rw [← Int64.ofInt_eq_ofNat, habs, Int64.ofInt_neg, Int64.ofInt_toInt]

theorem natAbs_lt_of_ne_minValue {i : Int64} (h : i ≠ Int64.minValue) :
    i.toInt.natAbs < 0x8000000000000000 := by
  have hlow := i.le_toInt
  have hhigh := i.toInt_lt
  have hne : i.toInt ≠ -0x8000000000000000 := fun heq => h (Int64.toInt_inj.mp heq)
  omega

end Int64

theorem Lexes.minus {d : Char} (h : d.isDigit = true) (rest : List Char) :
    Lexes ['-'] (d :: rest) [.dash] := by
  refine Lexes.dash ?_
  simpa using fun heq : d = '>' => absurd (heq ▸ h) (by decide)

theorem Lexes.natural {n : Nat} (h : n < 0x8000000000000000) {rest : List Char}
    (hrest : EndsLiteral rest) :
    Lexes (Nat.toDigits 10 n) rest [.integer (Int64.ofNat n)] := by
  have hread := Lexer.number_digits (Nat.toDigits 10 n)
    (fun c hc => Layout.mem_toDigits_isDigit hc) hrest
  rw [Numeral.ofDigits_toDigits, if_pos h] at hread
  obtain ⟨d, ds, hd, hfirst⟩ := Layout.toDigits_eq_cons n
  rw [hd] at hread ⊢
  exact Lexes.token (Text.not_blank_of_isDigit hfirst)
    ((Lexer.token_of_isDigit hfirst _).trans hread)

theorem Unlexable.natural {n : Nat} (h : 0x8000000000000000 ≤ n) {rest : List Char}
    (hrest : EndsLiteral rest) : Unlexable (Nat.toDigits 10 n ++ rest) := by
  have hread := Lexer.number_digits (Nat.toDigits 10 n)
    (fun c hc => Layout.mem_toDigits_isDigit hc) hrest
  rw [Numeral.ofDigits_toDigits, if_neg (by omega)] at hread
  obtain ⟨d, ds, hd, hfirst⟩ := Layout.toDigits_eq_cons n
  rw [hd] at hread ⊢
  exact Unlexable.token (Text.not_blank_of_isDigit hfirst)
    ((Lexer.token_of_isDigit hfirst _).trans hread)

namespace Value

mutual

def tokens : Value → List Token
  | .null => [.keyword .nullWord]
  | .bool true => [.keyword .trueWord]
  | .bool false => [.keyword .falseWord]
  | .int i => if i.toInt < 0 then [.dash, .integer (-i)] else [.integer i]
  | .float (.finite x) =>
    if x.negative then [.dash, .float (.finite x.abs)] else [.float (.finite x.abs)]
  | .float _ => []
  | .string s => [.string s]
  | .list items =>
    .openBracket :: ([Token.comma].intercalate (itemTokens items) ++ [.closeBracket])

def itemTokens : List Value → List (List Token)
  | [] => []
  | item :: rest => tokens item :: itemTokens rest

end

theorem literals_eq_map (items : List Value) : literals items = items.map literal := by
  induction items with
  | nil => rfl
  | cons item rest ih => simp [literals, ih]

theorem toList_literal_list (items : List Value) :
    (Value.list items).literal.toList =
      '[' :: (", ".toList.intercalate (items.map fun v => v.literal.toList) ++ [']']) := by
  simp [literal, Text.listing, literals_eq_map, String.toList_intercalate, Function.comp_def]

theorem itemTokens_eq_map (items : List Value) : itemTokens items = items.map tokens := by
  induction items with
  | nil => rfl
  | cons item rest ih => simp [itemTokens, ih]

/-- Values whose literal can be read: the digits of the least integer do not fit 63 bits, and a
number that is not finite has no literal. -/
inductive Writable : Value → Prop
  | null : Writable .null
  | bool (b : Bool) : Writable (.bool b)
  | int {i : Int64} (h : i ≠ Int64.minValue) : Writable (.int i)
  | float (x : Finite64) : Writable (.float (.finite x))
  | string (s : String) : Writable (.string s)
  | list {items : List Value} (h : ∀ v ∈ items, Writable v) : Writable (.list items)

end Value

namespace Lexes

theorem int {i : Int64} (h : i ≠ Int64.minValue) {rest : List Char} (hrest : EndsLiteral rest) :
    Lexes (intText i.toInt).toList rest (Value.int i).tokens := by
  have hnat := Lexes.natural (Int64.natAbs_lt_of_ne_minValue h) hrest
  obtain ⟨d, ds, hd, hfirst⟩ := Layout.toDigits_eq_cons i.toInt.natAbs
  rw [hd] at hnat
  simp only [intText, String.toList_ofList, Layout.intText, Value.tokens, hd]
  by_cases hneg : i.toInt < 0
  · rw [Int64.ofNat_natAbs_of_neg hneg] at hnat
    rw [if_pos hneg, if_pos hneg]
    exact Lexes.cons (Lexes.minus hfirst _) hnat
  · rw [Int64.ofNat_natAbs_of_nonneg (by omega)] at hnat
    rw [if_neg hneg, if_neg hneg]
    exact hnat

theorem float (x : Finite64) {rest : List Char} (hrest : EndsLiteral rest) :
    Lexes (Layout.literal.text (.finite x)).toList rest (Value.float (.finite x)).tokens := by
  obtain ⟨s, hs, htext, hvalue⟩ := Layout.literal_magnitude x
  have hread := Lexer.number_spelling hs hrest
  obtain ⟨d, ds, hd, hfirst⟩ := hs.text_eq_cons
  rw [hvalue, hd] at hread
  have hmagnitude : Lexes (d :: ds) rest [.float (.finite x.abs)] :=
    Lexes.token (Text.not_blank_of_isDigit hfirst)
      ((Lexer.token_of_isDigit hfirst _).trans hread)
  simp only [Layout.text, String.toList_ofList, Layout.finite, Value.tokens, htext, hd]
  cases x.negative with
  | true => exact Lexes.cons (Lexes.minus hfirst _) hmagnitude
  | false => exact hmagnitude

theorem keyword {c : Char} {cs : List Char} {k : Keyword} (hk : keyword? (c :: cs) = some k)
    (hc : Text.startsIdentifier c = true) (hcs : cs.all Text.continuesIdentifier = true)
    {rest : List Char} (hrest : EndsWord rest) : Lexes (c :: cs) rest [.keyword k] := by
  have hword := Lexes.word hc (List.all_eq_true.mp hcs) hrest
  simpa [Token.ofWord, hk] using hword

theorem literal {v : Value} (hv : v.Writable) {rest : List Char} (hrest : EndsLiteral rest) :
    Lexes v.literal.toList rest v.tokens := by
  induction hv generalizing rest with
  | null => exact keyword (by decide) (by decide) (by decide) hrest.endsWord
  | bool b =>
    cases b with
    | true => exact keyword (by decide) (by decide) (by decide) hrest.endsWord
    | false => exact keyword (by decide) (by decide) (by decide) hrest.endsWord
  | int h => exact Lexes.int h hrest
  | float x => exact Lexes.float x hrest
  | string s => exact Lexes.string s rest
  | @list items _ ih =>
    have hclose := endsLiteral_cons rest (c := ']') (by decide)
    have hitems := Lexes.separated items (fun v => v.literal.toList) _
      Lexes.commaSpace endsLiteral_commaSpace (fun v hv rest hrest => ih v hv hrest) hclose
    rw [Value.toList_literal_list, Value.tokens, Value.itemTokens_eq_map]
    exact Lexes.cons (Lexes.sign _ (by simp [plainSigns]))
      (Lexes.append hitems (Lexes.sign rest (by simp [plainSigns])))

end Lexes

theorem Unlexable.minValue {rest : List Char} (hrest : EndsLiteral rest) :
    Unlexable ((intText Int64.minValue.toInt).toList ++ rest) := by
  have hnat := Unlexable.natural (n := 0x8000000000000000) (by omega) hrest
  obtain ⟨d, ds, hd, hfirst⟩ := Layout.toDigits_eq_cons 0x8000000000000000
  have htext : (intText Int64.minValue.toInt).toList =
      '-' :: Nat.toDigits 10 0x8000000000000000 := by
    simp [intText, Layout.intText]
  rw [htext, hd, List.cons_append]
  rw [hd] at hnat
  exact Lexes.unlexable (Lexes.minus hfirst _) hnat

end FieldGraph
