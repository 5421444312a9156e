import FieldGraph.Json.Reader

/-!
# Values read from text

Every value that is read from a text is well-formed: a field that is repeated replaces the one
before it.
-/
namespace FieldGraph.Json

theorem keys_setField (fields : List (String × Json)) (key : String) (value : Json) :
    (setField fields key value).map Prod.fst =
      if key ∈ fields.map Prod.fst then fields.map Prod.fst else fields.map Prod.fst ++ [key] := by
  induction fields with
  | nil => simp [setField]
  | cons field rest ih =>
    obtain ⟨k, v⟩ := field
    rw [setField]
    by_cases h : k = key
    · simp [h]
    · have hne : key ≠ k := fun heq => h heq.symm
      rw [if_neg h, List.map_cons, ih]
      by_cases hmem : key ∈ rest.map Prod.fst
      · simp [hmem]
      · simp [hmem, hne]

theorem nodup_setField {fields : List (String × Json)} (h : (fields.map Prod.fst).Nodup)
    (key : String) (value : Json) : ((setField fields key value).map Prod.fst).Nodup := by
  rw [keys_setField]
  split
  case isTrue => exact h
  case isFalse hnew =>
    refine List.nodup_append.mpr ⟨h, by simp, ?_⟩
    intro a ha b hb heq
    rw [List.mem_singleton.mp hb] at heq
    exact hnew (heq ▸ ha)

theorem WellFormedFields.setField {fields : List (String × Json)} (h : WellFormedFields fields)
    (key : String) {value : Json} (hvalue : value.WellFormed) :
    WellFormedFields (Json.setField fields key value) := by
  induction fields with
  | nil => exact ⟨hvalue, trivial⟩
  | cons field rest ih =>
    obtain ⟨k, v⟩ := field
    rw [Json.setField]
    split
    · exact ⟨hvalue, h.2⟩
    · exact ⟨h.1, ih h.2⟩

theorem wellFormed_of_floatOf? {negative : Bool} {significand : Nat} {exponent : Int} {v : Json}
    (h : floatOf? negative significand exponent = some v) : v.WellFormed := by
  unfold floatOf? at h
  split at h
  case h_1 =>
    obtain ⟨x, _, rfl⟩ := Option.map_eq_some_iff.mp h
    trivial
  case h_2 => cases h

theorem wellFormed_of_withExponent? {negative : Bool} {significand : Nat} {start exponent : Int}
    {v : Json} (h : withExponent? negative significand start exponent = some v) :
    v.WellFormed := by
  unfold withExponent? at h
  split at h
  · exact wellFormed_of_floatOf? h
  · split at h
    · cases h
    · cases h
      trivial

theorem wellFormed_wholeNumber (negative : Bool) (n : Nat) :
    (wholeNumber negative n).WellFormed := by
  rw [wholeNumber]
  by_cases h : (negative → n ≠ 0) ∧ IntegerRange (if negative then -(n : Int) else n)
  · rw [dif_pos h]
    trivial
  · rw [dif_neg h]
    cases Binary64.ofInt n <;> trivial

theorem wellFormed_of_readNumber? {cs rest : List Char} {v : Json}
    (h : readNumber? cs = some (v, rest)) : v.WellFormed := by
  obtain ⟨⟨text, after⟩, _, h⟩ := Option.bind_eq_some_iff.mp h
  obtain ⟨value, hvalue, h⟩ := Option.bind_eq_some_iff.mp h
  cases h
  unfold NumberText.value? at hvalue
  dsimp only at hvalue
  split at hvalue
  · split at hvalue
    · cases hvalue
      exact wellFormed_wholeNumber _ _
    · exact wellFormed_of_floatOf? hvalue
  · exact wellFormed_of_withExponent? hvalue
  · split at hvalue
    · exact wellFormed_of_floatOf? hvalue
    · exact wellFormed_of_withExponent? hvalue

theorem wellFormed_of_readScalar? {cs rest : List Char} {v : Json}
    (h : readScalar? cs = some (v, rest)) : v.WellFormed := by
  unfold readScalar? at h
  split at h
  case h_4 =>
    obtain ⟨⟨s, after⟩, _, h⟩ := Option.map_eq_some_iff.mp h
    cases h
    trivial
  case h_5 => exact wellFormed_of_readNumber? h
  all_goals
    cases h
    trivial

mutual

theorem wellFormed_of_readValue? (limit : Nat) {depth : Nat} {cs rest : List Char} {v : Json}
    (h : readValue? limit depth cs = some (v, rest)) : v.WellFormed := by
  match limit with
  | 0 =>
    rw [readValue?] at h
    cases h
  | limit + 1 =>
    unfold readValue? at h
    split at h
    case h_1 => cases h
    case h_2 => cases h
    case h_3 =>
      split at h
      · cases h
        trivial
      · obtain ⟨⟨items, after⟩, hitems, h⟩ := Option.map_eq_some_iff.mp h
        cases h
        exact wellFormed_of_readItems? limit hitems
    case h_4 =>
      split at h
      · cases h
        exact ⟨List.nodup_nil, trivial⟩
      · obtain ⟨⟨fields, after⟩, hfields, h⟩ := Option.map_eq_some_iff.mp h
        cases h
        have hempty : (([] : List (String × Json)).map Prod.fst).Nodup := List.nodup_nil
        exact wellFormed_of_readFields? limit hempty trivial hfields
    case h_5 => exact wellFormed_of_readScalar? h

theorem wellFormed_of_readItems? (limit : Nat) {depth : Nat} {cs rest : List Char}
    {items : List Json} (h : readItems? limit depth cs = some (items, rest)) :
    WellFormedItems items := by
  match limit with
  | 0 =>
    rw [readItems?] at h
    cases h
  | limit + 1 =>
    rw [readItems?] at h
    obtain ⟨⟨item, after⟩, hitem, h⟩ := Option.bind_eq_some_iff.mp h
    have hfirst := wellFormed_of_readValue? limit hitem
    dsimp only at h
    split at h
    · cases h
      exact ⟨hfirst, trivial⟩
    · obtain ⟨⟨others, _⟩, hothers, h⟩ := Option.bind_eq_some_iff.mp h
      cases h
      exact ⟨hfirst, wellFormed_of_readItems? limit hothers⟩
    · cases h

theorem wellFormed_of_readFields? (limit : Nat) {depth : Nat} {cs rest : List Char}
    {before fields : List (String × Json)} (hnodup : (before.map Prod.fst).Nodup)
    (hbefore : WellFormedFields before)
    (h : readFields? limit depth before cs = some (fields, rest)) :
    (Json.object fields).WellFormed := by
  match limit with
  | 0 =>
    rw [readFields?] at h
    cases h
  | limit + 1 =>
    rw [readFields?] at h
    obtain ⟨⟨key, middle⟩, _, h⟩ := Option.bind_eq_some_iff.mp h
    obtain ⟨⟨value, after⟩, hvalue, h⟩ := Option.bind_eq_some_iff.mp h
    have hkeys := nodup_setField hnodup key value
    have hfields := WellFormedFields.setField hbefore key (wellFormed_of_readValue? limit hvalue)
    dsimp only at h
    split at h
    · cases h
      exact ⟨hkeys, hfields⟩
    · exact wellFormed_of_readFields? limit hkeys hfields h
    · cases h

end

/-- No object that is read from a text has two fields of one name. -/
theorem wellFormed_of_parse? {text : String} {document : Json} (h : parse? text = some document) :
    document.WellFormed := by
  unfold parse? parseWithin? at h
  dsimp only at h
  split at h
  case h_1 hread =>
    split at h
    · cases h
      exact wellFormed_of_readValue? _ hread
    · cases h
  case h_2 => cases h

end FieldGraph.Json
