import FieldGraph.Proofs.Search.Splitting
import Mathlib.Data.Bool.AllAny

/-!
# Searches for quoted values

A filter can be written with its value in quotes. Any number of such filters, one after another, are
read back as they were, and no value is taken for an integer.
-/
namespace FieldGraph

/-- A filter whose value can stand in quotes. A colon in the first word of the value would be taken
for the end of the key. -/
structure QuotedFilter where
  key : String
  value : String
  key_word : ∀ c ∈ key.toList, Text.isBlank c = false
  value_line : ∀ c ∈ value.toList, c ≠ '\x22' ∧ Text.isLineBreak c = false
  value_word : ':' ∉ value.toList.takeWhile fun c => !Text.isBlank c

namespace QuotedFilter

def text (f : QuotedFilter) : String := f.key ++ ":\"" ++ f.value ++ "\""

/-- What is asked of a node. Backticks in a key do not count, but for whether it is that of the node
number. -/
def predicate (f : QuotedFilter) : SearchPredicate :=
  if f.key = "_id" then ⟨.nodeId, .equals, .string f.value⟩
  else ⟨.property (String.ofList (f.key.toList.filter (· != '\x60'))), .contains, .string f.value⟩

def token (before : List Char) (f : QuotedFilter) : SearchToken :=
  ⟨before, f.key.toList, .quoted f.value.toList⟩

theorem predicate_token (before : List Char) (f : QuotedFilter) :
    (f.token before).predicate = f.predicate := by
  by_cases hid : f.key = "_id"
  · simp [SearchToken.predicate, predicate, token, idKey, hid, RawValue.value]
  · simp [SearchToken.predicate, predicate, token, idKey, hid, RawValue.value]

theorem toList_text (f : QuotedFilter) :
    f.text.toList = f.key.toList ++ ':' :: '\x22' :: (f.value.toList ++ ['\x22']) := by
  simp [text]

variable {rest : List Char} {tokens : List SearchToken}

/-- The last colon of the word that a filter starts with is the one after its key. -/
theorem colon_last (f : QuotedFilter) (hrest : ∀ c ∈ rest.head?, Text.isBlank c = true) :
    ':' ∉ ('\x22' :: (f.value.toList ++ '\x22' :: rest)).takeWhile RawValue.isWordChar := by
  have hend : ('\x22' :: rest).takeWhile RawValue.isWordChar = ['\x22'] := by
    have hblank : ∀ c ∈ rest.head?, RawValue.isWordChar c = false := fun c hc =>
      RawValue.isWordChar_eq_false_iff.mpr (hrest c hc)
    have hnone : rest.takeWhile RawValue.isWordChar = [] :=
      (Text.takeWhile_append_of_end [] hblank).1
    rw [List.takeWhile_cons_of_pos RawValue.isWordChar_quote, hnone]
  have hword : ':' ∉ f.value.toList.takeWhile RawValue.isWordChar := f.value_word
  rw [List.takeWhile_cons_of_pos RawValue.isWordChar_quote, List.takeWhile_append]
  split
  case isTrue hall =>
    rw [(List.takeWhile_sublist _).eq_of_length hall] at hword
    rw [hend]
    simp [hword]
  case isFalse => simp [hword]

theorem splits_cons (f : QuotedFilter) {before : List Char}
    (hbefore : SearchToken.Precedes [] before) (hrest : ∀ c ∈ rest.head?, Text.isBlank c = true)
    (h : SearchToken.Splits rest tokens) :
    SearchToken.Splits (before ++ (f.text.toList ++ rest)) (f.token before :: tokens) := by
  have hkey : ∀ c ∈ f.key.toList, RawValue.isWordChar c = true := by
    intro c hc
    simp [RawValue.isWordChar, f.key_word c hc]
  have hvalue : ∀ c ∈ f.value.toList, RawValue.isQuotable c = true := by
    intro c hc
    simp [RawValue.isQuotable, f.value_line c hc]
  have hsplits := SearchToken.Splits.cons (t := f.token before) hbefore hkey
    (f.colon_last hrest) (.quoted hvalue f.value_word) h
  simpa [toList_text, token] using hsplits

def following (filters : List QuotedFilter) : List Char :=
  filters.flatMap fun f => ' ' :: f.text.toList

theorem blank_following (filters : List QuotedFilter) :
    ∀ c ∈ (following filters).head?, Text.isBlank c = true := by
  cases filters with
  | nil => simp [following]
  | cons f filters =>
    intro c hc
    obtain rfl : ' ' = c := by simpa [following] using hc
    decide

theorem splits_following (filters : List QuotedFilter) :
    SearchToken.Splits (following filters) (filters.map (token [' '])) := by
  have hspace : SearchToken.Precedes [] [' '] := by
    constructor <;> simp <;> decide
  induction filters with
  | nil =>
    apply SearchToken.Splits.nil
    simp [following]
  | cons f filters ih => exact f.splits_cons hspace (blank_following filters) ih

theorem text_following (filters : List QuotedFilter) :
    (filters.map (token [' '])).flatMap SearchToken.text = List.replicate filters.length ' ' := by
  induction filters with
  | nil => rfl
  | cons f filters ih => simp [token, ih, List.replicate_succ]

theorem toList_written (f : QuotedFilter) (filters : List QuotedFilter) :
    (" ".intercalate ((f :: filters).map text)).toList = f.text.toList ++ following filters := by
  have hspace : " ".toList = [' '] := rfl
  rw [String.toList_intercalate, hspace, List.map_map]
  induction filters generalizing f with
  | nil => simp [following]
  | cons g filters ih =>
    rw [List.map_cons, List.map_cons, List.intercalate_cons_cons, ← List.map_cons, ih g]
    simp [following]

theorem searchTokens_written (f : QuotedFilter) (filters : List QuotedFilter) :
    searchTokens (" ".intercalate ((f :: filters).map text)).toList =
      f.token [] :: filters.map (token [' ']) := by
  have hfirst : SearchToken.Precedes [] [] := by
    constructor <;> simp
  rw [toList_written]
  apply SearchToken.Splits.searchTokens_eq
  exact f.splits_cons hfirst (blank_following filters) (splits_following filters)

/-- Filters with quoted values and spaces between them are read as they were written. -/
theorem read_written (filters : List QuotedFilter) :
    Search.parse (" ".intercalate (filters.map text)) =
      ⟨String.ofList (List.replicate (filters.length - 1) ' '), filters.map predicate⟩ := by
  cases filters with
  | nil => rfl
  | cons f filters =>
    have hpredicates : (filters.map (token [' '])).map SearchToken.predicate =
        filters.map predicate := by
      rw [List.map_map]
      apply List.map_congr_left
      intro g _
      exact predicate_token [' '] g
    rw [Search.parse, searchTokens_written, List.flatMap_cons, List.map_cons, text_following,
      hpredicates, predicate_token]
    rfl

def numberFilter : QuotedFilter where
  key := "_id"
  value := "7"
  key_word := List.all_iff_forall_prop.mp (by decide)
  value_line := List.all_iff_forall_prop.mp (by decide)
  value_word := by decide

/-- The backtick is dropped from the key, and only the last of its colons ends it. -/
def quotedKeyFilter : QuotedFilter where
  key := "a\x60:b"
  value := "c d:e"
  key_word := List.all_iff_forall_prop.mp (by decide)
  value_line := List.all_iff_forall_prop.mp (by decide)
  value_word := by decide

theorem two_filters_read :
    Search.parse "_id:\"7\" a\x60:b:\"c d:e\"" =
      ⟨" ", [⟨.nodeId, .equals, .string "7"⟩, ⟨.property "a:b", .contains, .string "c d:e"⟩]⟩ :=
  read_written [numberFilter, quotedKeyFilter]

end QuotedFilter

end FieldGraph
