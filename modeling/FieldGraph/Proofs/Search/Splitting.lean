import FieldGraph.Proofs.Text.Classes
import FieldGraph.Search.Basic
import Mathlib.Data.List.TakeWhile

/-!
# How a search text is split

A search text is the filters in it, each after the part of its line that precedes it, and pieces
without a colon that are dropped. Only one list of filters splits a text like that, and it is the
one that is read.
-/
namespace FieldGraph

namespace RawValue

/-- A value in double quotes starts a text and is closed on its line. -/
def Closed (cs : List Char) : Prop :=
  ∃ text rest, (∀ c ∈ text, isQuotable c = true) ∧ cs = '\x22' :: (text ++ '\x22' :: rest)

/-- A value at the beginning of a text, and the rest of the text after it. A bare value ends at the
first blank, which goes with it, or at the end of the text. -/
inductive Leads : List Char → RawValue → List Char → Prop
  | quoted {text rest : List Char} (htext : ∀ c ∈ text, isQuotable c = true)
      (hcolon : ':' ∉ text.takeWhile isWordChar) :
      Leads ('\x22' :: (text ++ '\x22' :: rest)) (.quoted text) rest
  | bare {text rest : List Char} {blank : Char} (htext : ∀ c ∈ text, isWordChar c = true)
      (hcolon : ':' ∉ text) (hblank : Text.isBlank blank = true)
      (hopen : ¬ Closed (text ++ blank :: rest)) : Leads (text ++ blank :: rest) (.bare text) rest
  | last {text : List Char} (htext : ∀ c ∈ text, isWordChar c = true) (hcolon : ':' ∉ text)
      (hopen : ¬ Closed text) : Leads text (.bare text) []

def written : RawValue → List Char
  | .quoted text => '\x22' :: (text ++ ['\x22'])
  | .bare text => text

theorem isWordChar_quote : isWordChar '\x22' = true := by decide

theorem isWordChar_colon : isWordChar ':' = true := by decide

theorem isQuotable_quote : isQuotable '\x22' = false := by decide

theorem isWordChar_eq_false_iff {c : Char} : isWordChar c = false ↔ Text.isBlank c = true := by
  simp [isWordChar]

theorem not_isLineBreak_of_isWordChar {c : Char} (h : isWordChar c = true) :
    Text.isLineBreak c = false := by
  rw [Bool.eq_false_iff]
  intro hbreak
  rw [isWordChar_eq_false_iff.mpr (Text.blank_of_isLineBreak hbreak)] at h
  cases h

theorem exists_word (cs : List Char) : ∃ word rest, cs = word ++ rest ∧
    (∀ c ∈ word, isWordChar c = true) ∧ ∀ c ∈ rest.head?, isWordChar c = false := by
  refine ⟨cs.takeWhile isWordChar, cs.dropWhile isWordChar,
    List.takeWhile_append_dropWhile.symm, fun c hc => List.mem_takeWhile_imp hc, ?_⟩
  intro c hc
  have hhead := List.head?_dropWhile_not isWordChar cs
  rwa [hc] at hhead

theorem mem_takeWhile_append {p : Char → Bool} {a : Char} {cs : List Char} (others : List Char)
    (h : a ∈ cs.takeWhile p) : a ∈ (cs ++ others).takeWhile p := by
  rw [List.takeWhile_append]
  split
  · exact List.mem_append_left _ ((List.takeWhile_sublist p).subset h)
  · exact h

theorem read_of_closed {text : List Char} (htext : ∀ c ∈ text, isQuotable c = true)
    (rest : List Char) : read ('\x22' :: (text ++ '\x22' :: rest)) = .quoted text := by
  obtain ⟨htake, hdrop⟩ := Text.takeWhile_append_of_head ('\x22' :: rest) htext
    (by simp [isQuotable_quote])
  simp [read, htake, hdrop]

theorem read_of_open {cs : List Char} (hopen : ¬ Closed cs) :
    read cs = .bare (cs.takeWhile isWordChar) := by
  unfold read
  split
  case h_1 rest =>
    rw [List.takeWhile_cons_of_pos isWordChar_quote]
    split
    case h_1 tail htail =>
      refine absurd ⟨rest.takeWhile isQuotable, tail, fun c hc => List.mem_takeWhile_imp hc, ?_⟩
        hopen
      rw [← htail, List.takeWhile_append_dropWhile]
    case h_2 => rfl
  case h_2 => rfl

variable {cs rest : List Char} {value : RawValue}

theorem Leads.read_eq (h : Leads cs value rest) : read cs = value := by
  cases h with
  | quoted htext => exact read_of_closed htext rest
  | bare htext _ hblank hopen =>
    rw [read_of_open hopen, (Text.takeWhile_append_of_head _ htext ?_).1]
    simpa [isWordChar_eq_false_iff] using hblank
  | last htext _ hopen => rw [read_of_open hopen, List.takeWhile_eq_self_iff.mpr htext]

theorem Leads.drop_eq (h : Leads cs value rest) : cs.drop value.length = rest := by
  cases h with
  | quoted => simp [length]
  | bare => simp [length]
  | last => simp [length]

/-- Only a blank goes with a value, so no colon does. -/
theorem Leads.count_colon (h : Leads cs value rest) :
    cs.count ':' = value.written.count ':' + rest.count ':' := by
  cases h with
  | quoted => simp [written, List.count_append]
  | @bare text rest blank _ _ hblank =>
    have hne : blank ≠ ':' := by
      rintro rfl
      exact absurd hblank (by decide)
    simp [written, List.count_append, List.count_cons_of_ne hne]
  | last => simp [written]

/-- A value starts every text that has no colon in its first word. -/
theorem exists_leads {cs : List Char} (hcolon : ':' ∉ cs.takeWhile isWordChar) :
    ∃ value rest, Leads cs value rest := by
  by_cases hclosed : Closed cs
  · obtain ⟨text, rest, htext, rfl⟩ := hclosed
    refine ⟨_, _, .quoted htext fun h => hcolon ?_⟩
    rw [List.takeWhile_cons_of_pos isWordChar_quote]
    exact List.mem_cons_of_mem _ (mem_takeWhile_append _ h)
  · obtain ⟨word, rest, rfl, hword, hrest⟩ := exists_word cs
    rw [(Text.takeWhile_append_of_head rest hword hrest).1] at hcolon
    cases rest with
    | nil =>
      rw [List.append_nil] at hclosed ⊢
      exact ⟨_, _, .last hword hcolon hclosed⟩
    | cons blank rest =>
      have hblank := isWordChar_eq_false_iff.mp (hrest blank rfl)
      exact ⟨_, _, .bare hword hcolon hblank hclosed⟩

end RawValue

namespace SearchToken

/-- What is passed over before the key of a filter: text that is dropped with the end of its line,
and then the part of a line that the filter keeps. -/
structure Precedes (dropped kept : List Char) : Prop where
  dropped_colon : ':' ∉ dropped
  dropped_end : dropped.getLast?.all Text.isLineBreak = true
  kept_colon : ':' ∉ kept
  kept_line : ∀ c ∈ kept, Text.isLineBreak c = false
  kept_end : kept.getLast?.all Text.isBlank = true

/-- A text is made of filters and of pieces that are dropped before, between and after them. The
colon of a filter is the last one of its word. -/
inductive Splits : List Char → List SearchToken → Prop
  | nil {dropped : List Char} (hdropped : ':' ∉ dropped) : Splits dropped []
  | cons {dropped value rest : List Char} {t : SearchToken} {tokens : List SearchToken}
      (hbefore : Precedes dropped t.text) (hkey : ∀ c ∈ t.key, RawValue.isWordChar c = true)
      (hlast : ':' ∉ value.takeWhile RawValue.isWordChar)
      (hvalue : RawValue.Leads value t.value rest) (hrest : Splits rest tokens) :
      Splits (dropped ++ (t.text ++ (t.key ++ ':' :: value))) (t :: tokens)

def written (t : SearchToken) : List Char := t.text ++ (t.key ++ ':' :: t.value.written)

variable {cs key value rest pending dropped kept : List Char} {c : Char}

theorem keyOf?_eq_none {word : List Char} (h : ':' ∉ word) : keyOf? word = none := by
  have hdrop : word.reverse.dropWhile (· != ':') = [] := by
    rw [List.dropWhile_eq_nil_iff]
    intro c hc
    simpa using ne_of_mem_of_not_mem (List.mem_reverse.mp hc) h
  simp [keyOf?, hdrop]

theorem keyOf?_append (key : List Char) {tail : List Char} (h : ':' ∉ tail) :
    keyOf? (key ++ ':' :: tail) = some key := by
  have hdrop : (tail.reverse ++ ':' :: key.reverse).dropWhile (· != ':') = ':' :: key.reverse := by
    refine (Text.takeWhile_append_of_head _ (fun c hc => ?_) (by simp)).2
    simpa using ne_of_mem_of_not_mem (List.mem_reverse.mp hc) h
  simp [keyOf?, hdrop]

theorem filterAt?_eq_none (h : ':' ∉ cs.takeWhile RawValue.isWordChar) : filterAt? cs = none := by
  rw [filterAt?, keyOf?_eq_none h, Option.map_none]

theorem filterAt?_append (hkey : ∀ c ∈ key, RawValue.isWordChar c = true)
    (hlast : ':' ∉ value.takeWhile RawValue.isWordChar) :
    filterAt? (key ++ ':' :: value) = some (key, RawValue.read value) := by
  have hword : (key ++ ':' :: value).takeWhile RawValue.isWordChar =
      key ++ ':' :: value.takeWhile RawValue.isWordChar := by
    rw [List.takeWhile_append_of_pos hkey, List.takeWhile_cons_of_pos RawValue.isWordChar_colon]
  simp [filterAt?, hword, keyOf?_append key hlast]

theorem scan_skip (pending : List Char) (skip : Nat) (cs : List Char) :
    scan pending skip cs = scan pending 0 (cs.drop skip) := by
  induction cs generalizing skip with
  | nil => simp [scan]
  | cons c rest ih =>
    cases skip with
    | zero => rfl
    | succ skip => exact ih skip

theorem scan_line_break (pending rest : List Char) (hc : Text.isLineBreak c = true) :
    scan pending 0 (c :: rest) = scan [] 0 rest := by
  simp [scan, hc]

theorem scan_plain (pending : List Char) (hc : Text.isLineBreak c = false)
    (hword : ':' ∉ (c :: rest).takeWhile RawValue.isWordChar) :
    scan pending 0 (c :: rest) = scan (pending ++ [c]) 0 rest := by
  simp [scan, hc, filterAt?_eq_none hword]

theorem scan_filter (pending : List Char) {v : RawValue}
    (hkey : ∀ c ∈ key, RawValue.isWordChar c = true)
    (hlast : ':' ∉ value.takeWhile RawValue.isWordChar) (hvalue : RawValue.Leads value v rest) :
    scan pending 0 (key ++ ':' :: value) = ⟨pending, key, v⟩ :: scan [] 0 rest := by
  have hfilter := filterAt?_append hkey hlast
  rw [hvalue.read_eq] at hfilter
  have hdrop : (key ++ ':' :: value).drop (key.length + v.length + 1) = rest := by
    rw [Nat.add_assoc, List.drop_length_add_append, List.drop_succ_cons, hvalue.drop_eq]
  obtain ⟨c, others, hcs, hc⟩ :
      ∃ c others, key ++ ':' :: value = c :: others ∧ RawValue.isWordChar c = true := by
    cases key with
    | nil => exact ⟨_, _, rfl, RawValue.isWordChar_colon⟩
    | cons c key => exact ⟨_, _, rfl, hkey c List.mem_cons_self⟩
  have hline := RawValue.not_isLineBreak_of_isWordChar hc
  rw [hcs] at hfilter hdrop ⊢
  simp only [scan, hline, hfilter, Bool.false_eq_true, if_false]
  rw [scan_skip, ← hdrop, List.drop_succ_cons]

theorem not_mem_word (rest : List Char) {front : List Char} (hcolon : ':' ∉ front)
    (hne : front ≠ []) (hend : front.getLast?.all Text.isBlank = true) :
    ':' ∉ (front ++ rest).takeWhile RawValue.isWordChar := by
  rw [List.takeWhile_append]
  split
  case isTrue hall =>
    have hword : front.takeWhile RawValue.isWordChar = front :=
      (List.takeWhile_prefix _).eq_of_length hall
    have hlast := List.takeWhile_eq_self_iff.mp hword _ (List.getLast_mem hne)
    rw [List.getLast?_eq_some_getLast hne, Option.all_some,
      ← RawValue.isWordChar_eq_false_iff, hlast] at hend
    exact absurd hend (by decide)
  case isFalse => exact fun h => hcolon ((List.takeWhile_sublist _).subset h)

theorem ends_tail {p : Char → Bool} (h : (c :: cs).getLast?.all p = true) :
    cs.getLast?.all p = true := by
  cases cs with
  | nil => rfl
  | cons d cs => rwa [List.getLast?_cons_cons] at h

theorem scan_kept (pending : List Char) (hcolon : ':' ∉ kept)
    (hline : ∀ c ∈ kept, Text.isLineBreak c = false)
    (hend : kept.getLast?.all Text.isBlank = true) (rest : List Char) :
    scan pending 0 (kept ++ rest) = scan (pending ++ kept) 0 rest := by
  induction kept generalizing pending with
  | nil => simp
  | cons c kept ih =>
    have hword := not_mem_word rest hcolon (by simp) hend
    rw [List.cons_append] at hword ⊢
    rw [scan_plain pending (hline c List.mem_cons_self) hword,
      ih _ (fun h => hcolon (List.mem_cons_of_mem c h))
        (fun d hd => hline d (List.mem_cons_of_mem c hd)) (ends_tail hend),
      List.append_assoc, List.singleton_append]

theorem scan_dropped (pending : List Char) (hcolon : ':' ∉ dropped)
    (hend : dropped.getLast?.all Text.isLineBreak = true) (hpending : dropped = [] → pending = [])
    (rest : List Char) : scan pending 0 (dropped ++ rest) = scan [] 0 rest := by
  induction dropped generalizing pending with
  | nil => rw [hpending rfl, List.nil_append]
  | cons c dropped ih =>
    have hcolon' : ':' ∉ dropped := fun h => hcolon (List.mem_cons_of_mem c h)
    rw [List.cons_append]
    cases hbreak : Text.isLineBreak c with
    | true => rw [scan_line_break _ _ hbreak, ih [] hcolon' (ends_tail hend) fun _ => rfl]
    | false =>
      have hblank : (c :: dropped).getLast?.all Text.isBlank = true := by
        rw [Option.all_eq_true] at hend ⊢
        exact fun d hd => Text.blank_of_isLineBreak (hend d hd)
      have hword := not_mem_word rest hcolon (by simp) hblank
      rw [List.cons_append] at hword
      rw [scan_plain pending hbreak hword]
      refine ih _ hcolon' (ends_tail hend) ?_
      rintro rfl
      simp [hbreak] at hend

theorem scan_precedes (h : Precedes dropped kept) (rest : List Char) :
    scan [] 0 (dropped ++ (kept ++ rest)) = scan kept 0 rest := by
  rw [scan_dropped [] h.dropped_colon h.dropped_end (fun _ => rfl),
    scan_kept [] h.kept_colon h.kept_line h.kept_end, List.nil_append]

theorem scan_eq_nil (pending : List Char) (hcolon : ':' ∉ cs) : scan pending 0 cs = [] := by
  induction cs generalizing pending with
  | nil => rfl
  | cons c rest ih =>
    have hrest : ':' ∉ rest := fun h => hcolon (List.mem_cons_of_mem c h)
    cases hbreak : Text.isLineBreak c with
    | true => rw [scan_line_break _ _ hbreak, ih [] hrest]
    | false =>
      rw [scan_plain pending hbreak fun h => hcolon ((List.takeWhile_sublist _).subset h),
        ih _ hrest]

theorem Splits.searchTokens_eq {tokens : List SearchToken} (h : Splits cs tokens) :
    searchTokens cs = tokens := by
  unfold searchTokens
  induction h with
  | nil hdropped => exact scan_eq_nil [] hdropped
  | cons hbefore hkey hlast hvalue hrest ih =>
    rw [scan_precedes hbefore, scan_filter _ hkey hlast hvalue, ih]

/-- One more character before a filter is dropped or kept, unless it is of the filter's word. -/
theorem Precedes.push (h : Precedes dropped kept) (hc : c ≠ ':')
    (hblank : dropped ++ kept = [] → Text.isBlank c = true) :
    ∃ dropped' kept', Precedes dropped' kept' ∧ dropped' ++ kept' = c :: (dropped ++ kept) := by
  cases dropped with
  | cons d dropped =>
    refine ⟨c :: d :: dropped, kept, ⟨?_, ?_, h.kept_colon, h.kept_line, h.kept_end⟩, rfl⟩
    · exact List.not_mem_cons_of_ne_of_not_mem hc.symm h.dropped_colon
    · rw [List.getLast?_cons_cons]
      exact h.dropped_end
  | nil =>
    cases hbreak : Text.isLineBreak c with
    | true =>
      refine ⟨[c], kept, ⟨?_, ?_, h.kept_colon, h.kept_line, h.kept_end⟩, rfl⟩
      · simpa using hc.symm
      · simpa using hbreak
    | false =>
      refine ⟨[], c :: kept, ⟨h.dropped_colon, rfl, ?_, ?_, ?_⟩, rfl⟩
      · exact List.not_mem_cons_of_ne_of_not_mem hc.symm h.kept_colon
      · exact List.forall_mem_cons.mpr ⟨hbreak, h.kept_line⟩
      · cases kept with
        | nil => simpa using hblank rfl
        | cons d kept =>
          rw [List.getLast?_cons_cons]
          exact h.kept_end

theorem exists_precedes (hcolon : ':' ∈ cs) :
    ∃ dropped kept key value, Precedes dropped kept ∧
      (∀ c ∈ key, RawValue.isWordChar c = true) ∧ ':' ∉ value.takeWhile RawValue.isWordChar ∧
      cs = dropped ++ (kept ++ (key ++ ':' :: value)) := by
  induction cs with
  | nil => exact absurd hcolon List.not_mem_nil
  | cons c cs ih =>
    by_cases hword : ':' ∈ (c :: cs).takeWhile RawValue.isWordChar
    · obtain ⟨word, others, hcs, hchars, hothers⟩ := RawValue.exists_word (c :: cs)
      rw [hcs, (Text.takeWhile_append_of_head others hchars hothers).1] at hword
      obtain ⟨key, tail, rfl, htail⟩ : ∃ key tail, word = key ++ ':' :: tail ∧ ':' ∉ tail := by
        obtain ⟨tail, key, hrev, htail⟩ := List.eq_append_cons_of_mem (List.mem_reverse.mpr hword)
        refine ⟨key.reverse, tail.reverse, ?_, by simpa using htail⟩
        simpa using congrArg List.reverse hrev
      refine ⟨[], [], key, tail ++ others, ⟨by simp, rfl, by simp, by simp, rfl⟩, ?_, ?_, ?_⟩
      · exact fun c hc => hchars c (List.mem_append_left _ hc)
      · rwa [(Text.takeWhile_append_of_head others (fun c hc => hchars c (by simp [hc]))
          hothers).1]
      · simpa using hcs
    · have hc : c ≠ ':' := by
        rintro rfl
        simp [RawValue.isWordChar_colon] at hword
      obtain ⟨dropped, kept, key, value, hbefore, hkey, hlast, rfl⟩ :=
        ih ((List.mem_cons.mp hcolon).resolve_left hc.symm)
      -- Right before the key there is a blank: a word that goes on into it would have the colon.
      obtain ⟨dropped', kept', hbefore', heq⟩ := hbefore.push hc fun hnil => by
        obtain ⟨rfl, rfl⟩ := List.append_eq_nil_iff.mp hnil
        by_contra hblank
        refine hword ?_
        rw [← RawValue.isWordChar_eq_false_iff, Bool.not_eq_false] at hblank
        simp [hblank, List.takeWhile_append_of_pos hkey, RawValue.isWordChar_colon]
      refine ⟨dropped', kept', key, value, hbefore', hkey, hlast, ?_⟩
      rw [← List.append_assoc dropped', heq, List.cons_append, List.append_assoc]

theorem exists_splits (cs : List Char) : ∃ tokens, Splits cs tokens := by
  by_cases hcolon : ':' ∈ cs
  · obtain ⟨dropped, kept, key, value, hbefore, hkey, hlast, hcs⟩ := exists_precedes hcolon
    obtain ⟨v, rest, hvalue⟩ := RawValue.exists_leads hlast
    have hlength : rest.length < cs.length := by
      simp only [hcs, ← hvalue.drop_eq, List.length_append, List.length_cons, List.length_drop]
      omega
    obtain ⟨tokens, hrest⟩ := exists_splits rest
    refine ⟨⟨kept, key, v⟩ :: tokens, ?_⟩
    rw [hcs]
    exact .cons (t := ⟨kept, key, v⟩) hbefore hkey hlast hvalue hrest
  · exact ⟨[], .nil hcolon⟩
termination_by cs.length

/-- The filters that are read are the only ones that split the text. -/
theorem splits_iff {tokens : List SearchToken} : Splits cs tokens ↔ searchTokens cs = tokens := by
  refine ⟨Splits.searchTokens_eq, ?_⟩
  rintro rfl
  obtain ⟨tokens, h⟩ := exists_splits cs
  rwa [h.searchTokens_eq]

/-- Every colon of a text is in one of its filters. -/
theorem Splits.count_colon {tokens : List SearchToken} (h : Splits cs tokens) :
    cs.count ':' = (tokens.flatMap written).count ':' := by
  induction h with
  | nil hdropped => exact List.count_eq_zero.mpr hdropped
  | cons hbefore hkey hlast hvalue hrest ih =>
    have hdropped := List.count_eq_zero.mpr hbefore.dropped_colon
    simp only [List.flatMap_cons, List.count_append, List.count_cons_self, hdropped,
      hvalue.count_colon, ih, written]
    omega

end SearchToken

/-- Reading a search text splits it, in the one way there is: the text that is kept and the
conditions are those of the filters in order, and every colon is in one of them. -/
theorem parse_splits (text : String) : ∃ tokens, SearchToken.Splits text.toList tokens ∧
    (∀ others, SearchToken.Splits text.toList others → others = tokens) ∧
    (Search.parse text).freeText = String.ofList (tokens.flatMap SearchToken.text) ∧
    (Search.parse text).predicates = tokens.map SearchToken.predicate ∧
    text.toList.count ':' = (tokens.flatMap SearchToken.written).count ':' := by
  have hsplits : SearchToken.Splits text.toList (searchTokens text.toList) :=
    SearchToken.splits_iff.mpr rfl
  refine ⟨searchTokens text.toList, hsplits, fun others hothers => ?_, rfl, rfl,
    hsplits.count_colon⟩
  exact (SearchToken.splits_iff.mp hothers).symm

example : searchTokens "old\nnear a:\"b c\"d:5 z".toList =
    [⟨"near ".toList, "a".toList, .quoted "b c".toList⟩, ⟨[], "d".toList, .bare "5".toList⟩] := by
  decide

end FieldGraph
