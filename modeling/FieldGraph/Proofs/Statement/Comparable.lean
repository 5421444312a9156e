import FieldGraph.Proofs.Outcome
import FieldGraph.Proofs.SortedMap
import FieldGraph.Proofs.Statement.Deriving
import FieldGraph.Proofs.Value.Equality
import FieldGraph.Statement.Match

/-!
# Values written in statements

No text of a number is read as not-a-number, so every value that a statement writes equals itself,
at whatever depth, the infinite numbers included.
-/
namespace FieldGraph

/-- A token that is not the number that differs from itself. -/
def Token.Comparable (t : Token) : Prop := t ≠ .float .nan

/-- All properties that the pattern asks for have values that equal themselves. -/
def NodePattern.Comparable (p : NodePattern) : Prop :=
  ∀ property ∈ p.properties, property.2.same property.2 = true

def Pattern.Comparable (p : Pattern) : Prop :=
  p.start.Comparable ∧ ∀ hop, p.hop = some hop → hop.2.Comparable

/-- So do the properties of a node that is made for the pattern. -/
theorem NodePattern.Comparable.same_of_get? {p : NodePattern} (h : p.Comparable) {key : String}
    {value : Value} (hget : p.propertyMap.get? key = some value) : value.same value = true := by
  rw [propertyMap, SortedMap.get?_ofList] at hget
  obtain ⟨before, after, hsplit, _⟩ := List.lookup_eq_some_iff.mp hget
  have hmem : (key, value) ∈ p.properties.reverse := by
    rw [hsplit]
    exact List.mem_append_right _ List.mem_cons_self
  exact h (key, value) (List.mem_reverse.mp hmem)

/-- The column shows no literal that holds not-a-number. -/
def ReturnItem.NaNFree (item : ReturnItem) : Prop :=
  ∀ value, item.projection = .value (.literal value) → ¬value.HasNaN

namespace Lexer

variable {t : Token} {n : Nat}

theorem comparable_decimal (negative : Bool) (whole fraction : List Char) (exponent : Int) :
    (Token.float (Numeral.decimal negative whole fraction exponent)).Comparable := by
  intro heq
  exact Binary64.ofDecimal_ne_nan _ _ _ (Token.float.inj heq)

theorem comparable_number {cs : List Char} (h : number cs = .ok (t, n)) : t.Comparable := by
  unfold number at h
  dsimp only at h
  split at h
  case h_1 =>
    split at h
    · cases h
      exact nofun
    · cases h
  all_goals
    cases h
    exact comparable_decimal _ _ _ _

theorem comparable_sign {c : Char} {rest : List Char} (h : sign c rest = .ok (t, n)) :
    t.Comparable := by
  unfold sign at h
  split at h
  all_goals cases h
  all_goals exact nofun

theorem comparable_word {cs : List Char} (h : word cs = .ok (t, n)) : t.Comparable := by
  cases h
  unfold Token.ofWord
  split
  · exact nofun
  · exact nofun

theorem comparable_token {c : Char} {rest : List Char} (h : token c rest = .ok (t, n)) :
    t.Comparable := by
  unfold token at h
  split at h
  case isTrue =>
    unfold string at h
    split at h
    · cases h
      exact nofun
    · cases h
  case isFalse =>
    split at h
    case isTrue =>
      unfold quotedIdentifier at h
      dsimp only at h
      split at h
      · cases h
        exact nofun
      · cases h
    case isFalse =>
      split at h
      case isTrue => exact comparable_number h
      case isFalse =>
        split at h
        case isTrue => exact comparable_word h
        case isFalse => exact comparable_sign h

theorem comparable_lexFrom {cs : List Char} {position skip : Nat} {lexemes : List Lexeme}
    (h : lexFrom position skip cs = .ok lexemes) : ∀ l ∈ lexemes, l.token.Comparable := by
  induction cs generalizing position skip lexemes with
  | nil =>
    cases h
    simp
  | cons c cs ih =>
    cases skip with
    | succ skip => exact ih h
    | zero =>
      rw [lexFrom] at h
      split at h
      case isTrue => exact ih h
      case isFalse =>
        split at h
        case h_1 => cases h
        case h_2 t n htoken =>
          obtain ⟨others, hothers, h⟩ := bind_eq_ok.mp h
          cases h
          exact List.forall_mem_cons.mpr ⟨comparable_token htoken, ih hothers⟩

end Lexer

theorem Value.Spelled.same_self {ts : List Token} {v : Value} (h : v.Spelled ts)
    (hts : ∀ t ∈ ts, t.Comparable) : v.same v = true := by
  induction h with
  | integer n => simp [Value.same]
  | minusInteger n => simp [Value.same]
  | float x =>
    have hx : x ≠ .nan := by
      rintro rfl
      exact hts _ List.mem_cons_self rfl
    exact Binary64.same_self hx
  | minusFloat x =>
    have hx : x ≠ .nan := by
      rintro rfl
      exact hts (.float .nan) (by simp) rfl
    exact Binary64.same_self (Binary64.neg_ne_nan hx)
  | string s => simp [Value.same]
  | trueWord => rfl
  | falseWord => rfl
  | nullWord => rfl
  | @list parts _ ih =>
    apply Value.sameAll_self
    intro v hv
    obtain ⟨part, hpart, rfl⟩ := List.mem_map.mp hv
    have hpart' : part.1 ∈ parts.map Prod.fst := List.mem_map.mpr ⟨part, hpart, rfl⟩
    apply ih part hpart
    intro t ht
    apply hts
    have hinner := (sublist_intercalate .comma hpart').subset ht
    exact List.mem_cons_of_mem _ (List.mem_append_left _ hinner)

theorem PropertiesSpelled.same_self {ts : List Token} {pairs : List (String × Value)}
    (h : PropertiesSpelled ts pairs) (hts : ∀ t ∈ ts, t.Comparable) :
    ∀ pair ∈ pairs, pair.2.same pair.2 = true := by
  cases h with
  | nothing => simp
  | braces h =>
    obtain ⟨parts, hparts, rfl, rfl⟩ := h
    intro pair hpair
    obtain ⟨⟨us, _⟩, hpart, rfl⟩ := List.mem_map.mp hpair
    have hus : us ∈ parts.map Prod.fst := List.mem_map.mpr ⟨_, hpart, rfl⟩
    have hinner : ∀ t ∈ us, t.Comparable := by
      intro t ht
      have hmem := (sublist_intercalate .comma hus).subset ht
      exact hts t (List.mem_cons_of_mem _ (List.mem_append_left _ hmem))
    cases hparts _ hpart with
    | intro key hvalue =>
      apply hvalue.same_self
      intro t ht
      exact hinner t (List.mem_cons_of_mem _ (List.mem_cons_of_mem _ ht))

theorem NodePattern.Spelled.comparable {ts : List Token} {p : NodePattern} (h : p.Spelled ts)
    (hts : ∀ t ∈ ts, t.Comparable) : p.Comparable := by
  cases h with
  | intro name label h =>
    apply h.same_self
    intro t ht
    exact hts t (by simp [ht])

theorem Pattern.Spelled.comparable {ts : List Token} {p : Pattern} (h : p.Spelled ts)
    (hts : ∀ t ∈ ts, t.Comparable) : p.Comparable := by
  cases h with
  | node h =>
    refine ⟨h.comparable hts, ?_⟩
    intro hop hhop
    cases hhop
  | hop hstart hr hstop =>
    refine ⟨hstart.comparable fun t ht => hts t (by simp [ht]), ?_⟩
    intro hop hhop
    cases hhop
    exact hstop.comparable fun t ht => hts t (by simp [ht])

/-- The tokens of a clause in a script are among the tokens of the script. -/
theorem Query.Spelled.clause_tokens {source : List Char} {ls rest : List Lexeme} {query : Query}
    {c : Clause} (h : Query.Spelled source ls rest query) (hc : c ∈ query) :
    ∃ ms ⊆ ls, ∃ others, c.Spelled source ms others := by
  induction h with
  | @one ls rest first h =>
    rw [List.mem_singleton] at hc
    subst hc
    exact ⟨ls, List.Subset.refl _, rest, h⟩
  | @more ls ms rest first query h others ih =>
    rcases List.mem_cons.mp hc with rfl | hc
    · exact ⟨ls, List.subset_append_left _ _, ms ++ rest, h⟩
    · obtain ⟨ns, hns, after, hspelled⟩ := ih hc
      exact ⟨ns, List.Subset.trans hns (List.subset_append_right _ _), after, hspelled⟩

theorem ItemsSpelled.item_tokens {source : List Char} {ls rest : List Lexeme}
    {items : List ReturnItem} {item : ReturnItem} (h : ItemsSpelled source ls rest items)
    (hitem : item ∈ items) : ∃ ms ⊆ ls, item.projection.Spelled (ms.map Lexeme.token) := by
  induction h with
  | @one ls rest first h =>
    rw [List.mem_singleton] at hitem
    subst hitem
    cases h with
    | intro h => exact ⟨ls, List.Subset.refl _, h⟩
  | @more ls ms rest l first items h hcomma others ih =>
    rcases List.mem_cons.mp hitem with rfl | hitem
    · cases h with
      | intro h => exact ⟨ls, List.subset_append_left _ _, h⟩
    · obtain ⟨ns, hns, hspelled⟩ := ih hitem
      refine ⟨ns, ?_, hspelled⟩
      intro l hl
      exact List.mem_append_right _ (List.mem_cons_of_mem _ (hns hl))

namespace Script

variable {text : String} {script : Script} {query : Query}

theorem Spelled.clause_tokens {source : List Char} {ls : List Lexeme} {c : Clause}
    (h : script.Spelled source ls) (hquery : query ∈ script) (hc : c ∈ query) :
    ∃ ms ⊆ ls, ∃ others, c.Spelled source ms others := by
  induction h with
  | nothing => cases hquery
  | semicolon _ h ih =>
    obtain ⟨ms, hms, hspelled⟩ := ih hquery
    exact ⟨ms, fun l hl => List.mem_cons_of_mem _ (hms hl), hspelled⟩
  | query h _ others ih =>
    rcases List.mem_cons.mp hquery with rfl | hquery
    · obtain ⟨ms, hms, hspelled⟩ := h.clause_tokens hc
      exact ⟨ms, fun l hl => List.mem_append_left _ (hms hl), hspelled⟩
    · obtain ⟨ms, hms, hspelled⟩ := ih hquery
      exact ⟨ms, fun l hl => List.mem_append_right _ (hms hl), hspelled⟩

theorem clause_of_parse {c : Clause} (h : parse text = .ok script) (hquery : query ∈ script)
    (hc : c ∈ query) : ∃ source ls others, c.Spelled source ls others ∧
      ∀ l ∈ ls, l.token.Comparable := by
  obtain ⟨lexemes, hlex, h⟩ := bind_eq_ok.mp h
  obtain ⟨ms, hms, others, hspelled⟩ := (spelled_of_ofLexemes h).clause_tokens hquery hc
  refine ⟨_, ms, others, hspelled, ?_⟩
  intro l hl
  exact Lexer.comparable_lexFrom hlex l (hms hl)

/-- A pattern to merge that was read from a text has values that equal themselves. -/
theorem comparable_of_parse {p : Pattern} (h : parse text = .ok script) (hquery : query ∈ script)
    (hp : .merge p ∈ query) : p.Comparable := by
  obtain ⟨source, ls, others, hspelled, hcomparable⟩ := clause_of_parse h hquery hp
  cases hspelled with
  | merge hword hp =>
    apply hp.comparable
    intro t ht
    obtain ⟨l, hl, rfl⟩ := List.mem_map.mp ht
    exact hcomparable l (List.mem_cons_of_mem _ hl)

/-- No column of a result that was read from a text is not-a-number, at whatever depth. -/
theorem nanFree_of_parse {items : List ReturnItem} (h : parse text = .ok script)
    (hquery : query ∈ script) (hitems : .result items ∈ query) :
    ∀ item ∈ items, item.NaNFree := by
  obtain ⟨source, ls, others, hspelled, hcomparable⟩ := clause_of_parse h hquery hitems
  intro item hitem value hvalue hnan
  cases hspelled with
  | result hword hitems =>
    obtain ⟨ms, hms, hspelled⟩ := hitems.item_tokens hitem
    have htokens : ∀ t ∈ ms.map Lexeme.token, t.Comparable := by
      intro t ht
      obtain ⟨l, hl, rfl⟩ := List.mem_map.mp ht
      exact hcomparable l (List.mem_cons_of_mem _ (hms hl))
    rw [hvalue] at hspelled
    generalize ms.map Lexeme.token = ts at hspelled htokens
    cases hspelled with
    | value ho =>
      cases ho with
      | literal hv =>
        have hsame := hv.same_self htokens
        rw [hnan.not_same] at hsame
        cases hsame

end Script

end FieldGraph
