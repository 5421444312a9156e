import FieldGraph.Proofs.Search.Splitting

/-!
# Searches line by line

A search text is read line by line. Nothing that is pending at the end of a line goes on after it:
neither the text before a filter, nor a value, whether or not a quote is open.
-/
namespace FieldGraph

variable {cs front rest value : List Char} {c : Char}

theorem ne_quote_of_isLineBreak (hc : Text.isLineBreak c = true) : c ≠ '\x22' := by
  rintro rfl
  exact absurd hc (by decide)

namespace RawValue

/-- A quote that is open at the end of a line is not closed on the lines after it. -/
theorem closed_of_line (hc : Text.isLineBreak c = true) (h : Closed (cs ++ c :: rest)) :
    Closed cs := by
  have hne := ne_quote_of_isLineBreak hc
  obtain ⟨text, others, htext, heq⟩ := h
  cases cs with
  | nil => exact absurd (List.cons.inj heq).1 hne
  | cons d cs =>
    obtain ⟨rfl, htail⟩ := List.cons.inj heq
    rcases List.append_eq_append_iff.mp htail with ⟨more, rfl, hmore⟩ | ⟨more, rfl, hmore⟩
    · -- The line would end within the quoted text.
      cases more with
      | nil => exact absurd (List.cons.inj hmore).1 hne
      | cons e more =>
        have hquotable := htext e (by simp)
        rw [← (List.cons.inj hmore).1] at hquotable
        simp [isQuotable, hc] at hquotable
    · cases more with
      | nil => exact absurd (List.cons.inj hmore).1.symm hne
      | cons e more =>
        obtain ⟨rfl, _⟩ := List.cons.inj hmore
        exact ⟨text, more, htext, rfl⟩

theorem takeWhile_line (hc : Text.isLineBreak c = true) (cs rest : List Char) :
    (cs ++ c :: rest).takeWhile isWordChar = cs.takeWhile isWordChar := by
  have hend : ∀ d ∈ (c :: rest).head?, isWordChar d = false := by
    rintro _ ⟨⟩
    exact isWordChar_eq_false_iff.mpr (Text.blank_of_isLineBreak hc)
  exact (Text.takeWhile_append_of_end cs hend).1

/-- A value is the same if more lines follow. What is left after it is left with these lines, unless
the value is bare and ends the text: then the line break is the blank that goes with it. -/
theorem Leads.line {v : RawValue} (hc : Text.isLineBreak c = true) (h : Leads cs v front)
    (rest : List Char) :
    Leads (cs ++ c :: rest) v (front ++ c :: rest) ∨
      (front = [] ∧ Leads (cs ++ c :: rest) v rest) := by
  cases h with
  | quoted htext hcolon =>
    left
    have hquoted := @quoted _ (front ++ c :: rest) htext hcolon
    simpa using hquoted
  | @bare text _ blank htext hcolon hblank hopen =>
    left
    have hstill : ¬Closed (text ++ blank :: (front ++ c :: rest)) := by
      intro hclosed
      have hline : Closed ((text ++ blank :: front) ++ c :: rest) := by simpa using hclosed
      exact hopen (closed_of_line hc hline)
    have hbare := bare htext hcolon hblank hstill
    simpa using hbare
  | last htext hcolon hopen =>
    right
    constructor
    · rfl
    · apply bare htext hcolon (Text.blank_of_isLineBreak hc)
      intro hclosed
      exact hopen (closed_of_line hc hclosed)

end RawValue

namespace SearchToken

variable {tokens others : List SearchToken}

theorem getLast?_line (hc : Text.isLineBreak c = true) (dropped : List Char)
    (h : rest.getLast?.all Text.isLineBreak = true) :
    (dropped ++ c :: rest).getLast?.all Text.isLineBreak = true := by
  cases rest with
  | nil => simpa using hc
  | cons d rest =>
    rw [List.getLast?_append, List.getLast?_cons_cons, List.getLast?_cons]
    rwa [List.getLast?_cons] at h

/-- What is pending at the end of a line is dropped. -/
theorem Splits.after_line (hc : Text.isLineBreak c = true) (hdropped : ':' ∉ front)
    (h : Splits rest tokens) : Splits (front ++ c :: rest) tokens := by
  have hcolon : ':' ≠ c := by
    rintro rfl
    exact absurd hc (by decide)
  cases h with
  | nil hrest =>
    apply Splits.nil
    simp [hdropped, hcolon, hrest]
  | @cons dropped value after t tokens hbefore hkey hlast hvalue hrest =>
    have hline : Precedes (front ++ c :: dropped) t.text := by
      refine ⟨?_, getLast?_line hc front hbefore.dropped_end, hbefore.kept_colon,
        hbefore.kept_line, hbefore.kept_end⟩
      simp [hdropped, hcolon, hbefore.dropped_colon]
    have hsplits := Splits.cons hline hkey hlast hvalue hrest
    simpa using hsplits

/-- The filters of two texts with a line break between them are those of the one and then those of
the other. -/
theorem Splits.line (hc : Text.isLineBreak c = true) (h : Splits cs tokens)
    (hrest : Splits rest others) : Splits (cs ++ c :: rest) (tokens ++ others) := by
  induction h with
  | nil hdropped => exact hrest.after_line hc hdropped
  | @cons dropped value after t tokens hbefore hkey hlast hvalue hafter ih =>
    have hword : ':' ∉ (value ++ c :: rest).takeWhile RawValue.isWordChar := by
      rwa [RawValue.takeWhile_line hc]
    have hsplits : Splits (dropped ++ (t.text ++ (t.key ++ ':' :: (value ++ c :: rest))))
        (t :: (tokens ++ others)) := by
      rcases hvalue.line hc rest with hlonger | ⟨rfl, hlonger⟩
      · exact .cons hbefore hkey hword hlonger ih
      · have hnone : tokens = [] := hafter.searchTokens_eq.symm
        rw [hnone, List.nil_append]
        exact .cons hbefore hkey hword hlonger hrest
    simpa using hsplits

end SearchToken

theorem searchTokens_line (hc : Text.isLineBreak c = true) (cs rest : List Char) :
    searchTokens (cs ++ c :: rest) = searchTokens cs ++ searchTokens rest := by
  apply SearchToken.splits_iff.mp
  apply SearchToken.Splits.line hc
  · exact SearchToken.splits_iff.mpr rfl
  · exact SearchToken.splits_iff.mpr rfl

/-- Reading two texts with a line break between them is reading the one and then the other. -/
theorem parse_lines (a b : String) {c : Char} (hc : c ∈ ['\n', '\r', '\u2028', '\u2029']) :
    (Search.parse (a ++ c.toString ++ b)).freeText =
        (Search.parse a).freeText ++ (Search.parse b).freeText ∧
      (Search.parse (a ++ c.toString ++ b)).predicates =
        (Search.parse a).predicates ++ (Search.parse b).predicates := by
  have hbreak : Text.isLineBreak c = true := by
    simp only [List.mem_cons, List.not_mem_nil, or_false] at hc
    rcases hc with rfl | rfl | rfl | rfl <;> rfl
  have htext : (a ++ c.toString ++ b).toList = a.toList ++ c :: b.toList := by
    simp
  have htokens : searchTokens (a ++ c.toString ++ b).toList =
      searchTokens a.toList ++ searchTokens b.toList := by
    rw [htext, searchTokens_line hbreak]
  constructor
  · simp only [Search.parse, htokens, List.flatMap_append, String.ofList_append]
  · simp only [Search.parse, htokens, List.map_append]

/-- An open quote, free text before a filter and an empty value at a line break. -/
theorem open_quote_ends_with_line :
    '\u2028' ∈ ['\n', '\r', '\u2028', '\u2029'] ∧
      (Search.parse "old name:\"Ann\u2028Lee\" near id:").predicates =
        [⟨.property "name", .contains, .string "\"Ann"⟩, ⟨.property "id", .contains, .string ""⟩] ∧
      (Search.parse "old name:\"Ann\u2028Lee\" near id:").freeText = "old Lee\" near " := by
  have hmem : '\u2028' ∈ ['\n', '\r', '\u2028', '\u2029'] := by decide
  obtain ⟨hfree, hpredicates⟩ := parse_lines "old name:\"Ann" "Lee\" near id:" hmem
  refine ⟨hmem, hpredicates.trans ?_, hfree.trans ?_⟩
  · decide +kernel
  · decide +kernel

end FieldGraph
