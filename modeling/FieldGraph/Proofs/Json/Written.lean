import FieldGraph.Json.Printer
import FieldGraph.Json.Reader
import FieldGraph.Proofs.Number.Literal
import FieldGraph.Proofs.Text.Classes
import Mathlib.Tactic.SplitIfs

/-!
# Reading what was written

Strings, integers and words are read back from their JSON text, in front of any text that does not
go on with a number.
-/
namespace FieldGraph.Json

variable {n : Nat} {c : Char} {text rest : List Char}

/-! ### Strings -/

theorem hexDigit?_digitChar : ∀ n < 16, hexDigit? (Nat.digitChar n) = some n := by
  decide

theorem readHex?_hexText (hn : n < 0x10000) (rest : List Char) :
    readHex? (hexText n ++ rest) = some (n, rest) := by
  have hdigit : ∀ k, hexDigit? (Nat.digitChar (k % 16)) = some (k % 16) :=
    fun k => hexDigit?_digitChar _ (Nat.mod_lt _ (by decide))
  have hvalue : 4096 * (n / 4096 % 16) + 256 * (n / 256 % 16) + 16 * (n / 16 % 16) + n % 16 = n := by
    omega
  simp [hexText, readHex?, hdigit, hvalue]

theorem readCodePoint?_hexText (hc : c.toNat < 0x20) (rest : List Char) :
    readCodePoint? (hexText c.toNat ++ rest) = some (c, rest) := by
  have hlow : isLowHalf c.toNat = false := by
    simp [isLowHalf]
    omega
  have hhigh : isHighHalf c.toNat = false := by
    simp [isHighHalf]
    omega
  simp [readCodePoint?, readHex?_hexText (Nat.lt_trans hc (by decide)), hlow, hhigh]

theorem readCharacter?_plain (hslash : c ≠ '\\') (hcontrol : ¬c.toNat < 0x20)
    (rest : List Char) : readCharacter? (c :: rest) = some (c, rest) := by
  unfold readCharacter?
  split <;> simp_all

theorem readCharacter?_escapeChar (c : Char) (rest : List Char) :
    readCharacter? (escapeChar c ++ rest) = some (c, rest) := by
  unfold escapeChar
  split_ifs with hself hb ht hn hf hr hcontrol
  · rcases hself with rfl | rfl <;> rfl
  · subst hb
    rfl
  · subst ht
    rfl
  · subst hn
    rfl
  · subst hf
    rfl
  · subst hr
    rfl
  · exact readCodePoint?_hexText hcontrol rest
  · exact readCharacter?_plain (fun h => hself (.inr h)) hcontrol rest

/-- No character of a string looks like its end. -/
theorem escapeChar_eq_cons (c : Char) : ∃ d ds, escapeChar c = d :: ds ∧ d ≠ '\x22' := by
  unfold escapeChar
  split_ifs with hself
  case neg => exact ⟨c, [], rfl, fun h => hself (.inl h)⟩
  all_goals exact ⟨'\\', _, rfl, by decide⟩

theorem length_le_escaped (text : List Char) : text.length ≤ (text.flatMap escapeChar).length := by
  induction text with
  | nil => exact Nat.le_refl 0
  | cons c text ih =>
    obtain ⟨d, ds, hd, -⟩ := escapeChar_eq_cons c
    rw [List.flatMap_cons, hd, List.length_append, List.length_cons, List.length_cons]
    omega

theorem readString?_escaped {limit : Nat} (hlimit : text.length ≤ limit) (rest : List Char) :
    readString? limit (text.flatMap escapeChar ++ '\x22' :: rest) = some (text, rest) := by
  induction text generalizing limit with
  | nil => cases limit <;> rfl
  | cons c text ih =>
    cases limit with
    | zero => simp at hlimit
    | succ limit =>
      have htext := ih (Nat.le_of_succ_le_succ hlimit)
      have hcharacter := readCharacter?_escapeChar c (text.flatMap escapeChar ++ '\x22' :: rest)
      obtain ⟨d, ds, hd, hquote⟩ := escapeChar_eq_cons c
      rw [List.flatMap_cons, List.append_assoc]
      rw [hd, List.cons_append] at hcharacter ⊢
      rw [readString?.eq_3 _ _ (by simpa using hquote), hcharacter]
      show (readString? limit _ >>= _) = _
      rw [htext]
      rfl

theorem readText?_stringText (s : String) (rest : List Char) :
    readText? (stringText s ++ rest) = some (s, rest) := by
  have hlimit : s.toList.length ≤ (s.toList.flatMap escapeChar ++ '\x22' :: rest).length := by
    rw [List.length_append]
    exact Nat.le_add_right_of_le (length_le_escaped _)
  have hread := readString?_escaped hlimit rest
  simp only [stringText, List.cons_append, List.append_assoc, List.nil_append, readText?, hread,
    Option.map_some, String.ofList_toList]

/-! ### Integers -/

/-- The text cannot go on with a number that ends before it. -/
def EndsNumber (rest : List Char) : Prop :=
  ∀ c ∈ rest.head?, c.isDigit = false ∧ c ∉ ['.', 'e', 'E']

theorem endsNumber_cons (rest : List Char) (h : c.isDigit = false ∧ c ∉ ['.', 'e', 'E']) :
    EndsNumber (c :: rest) := by
  simpa only [EndsNumber, List.head?_cons, Option.mem_some_iff, forall_eq'] using h

theorem spanDigits_toDigits (n : Nat) (hrest : EndsNumber rest) :
    Numeral.spanDigits (Nat.toDigits 10 n ++ rest) = (Nat.toDigits 10 n, rest) := by
  obtain ⟨htake, hdrop⟩ := Text.takeWhile_append_of_head rest
    (fun c hc => Layout.mem_toDigits_isDigit (n := n) hc) fun c hc => (hrest c hc).1
  rw [Numeral.spanDigits, htake, hdrop]

/-- Only zero is written with a zero in front. -/
theorem eq_nil_of_toDigits {ds : List Char} (h : Nat.toDigits 10 n = '0' :: ds) : ds = [] := by
  induction n using Nat.strong_induction_on generalizing ds with
  | h n ih =>
    by_cases hn : n < 10
    · rw [Nat.toDigits_of_lt_base hn] at h
      exact (List.cons.inj h).2.symm
    · -- The digits before the last are those of a tenth, which is not zero.
      rw [Nat.toDigits_of_base_le (by decide) (by omega)] at h
      obtain ⟨d, front, hd, -⟩ := Layout.toDigits_eq_cons (n / 10)
      rw [hd, List.cons_append] at h
      obtain ⟨rfl, -⟩ := List.cons.inj h
      obtain rfl := ih (n / 10) (by omega) hd
      have hzero := Numeral.ofDigits_toDigits (n / 10)
      rw [hd] at hzero
      have htenth : 0 = n / 10 := hzero
      omega

theorem readWhole?_toDigits (n : Nat) (hrest : EndsNumber rest) :
    readWhole? (Nat.toDigits 10 n ++ rest) = some (Nat.toDigits 10 n, rest) := by
  rw [readWhole?, spanDigits_toDigits n hrest]
  dsimp only
  split
  case h_1 hnil => exact absurd hnil Nat.toDigits_ne_nil
  case h_2 hzero => cases eq_nil_of_toDigits hzero
  case h_3 => rfl

theorem readFraction?_of_endsNumber (hrest : EndsNumber rest) :
    readFraction? rest = some (none, rest) := by
  unfold readFraction?
  split
  case h_1 => simp [EndsNumber] at hrest
  case h_2 => rfl

theorem readExponent?_of_endsNumber (hrest : EndsNumber rest) :
    readExponent? rest = some (none, rest) := by
  cases rest with
  | nil => rfl
  | cons c rest =>
    obtain ⟨-, hletter⟩ := hrest c rfl
    simp only [List.mem_cons, List.not_mem_nil, or_false, not_or] at hletter
    rw [readExponent?, if_neg (by tauto)]

def integerText (i : Int) : NumberText := ⟨i < 0, Nat.toDigits 10 i.natAbs, none, none⟩

theorem read?_intText (i : Int) (hrest : EndsNumber rest) :
    NumberText.read? (Layout.intText i ++ rest) = some (integerText i, rest) := by
  have hwhole := readWhole?_toDigits i.natAbs hrest
  have hfraction := readFraction?_of_endsNumber hrest
  have hexponent := readExponent?_of_endsNumber hrest
  unfold Layout.intText integerText
  by_cases hneg : i < 0
  · simp [NumberText.read?, hneg, hwhole, hfraction, hexponent]
  · obtain ⟨d, ds, hd, hdigit⟩ := Layout.toDigits_eq_cons i.natAbs
    have hsign : d ≠ '-' := by
      rintro rfl
      exact absurd hdigit (by decide)
    rw [hd, List.cons_append] at hwhole
    simp [NumberText.read?, hneg, hd, hwhole, hfraction, hexponent, hsign]

theorem takeSignificand_eq {digits : List Char} {significand : Nat}
    (h : Nat.ofDigitChars 10 digits significand < 0x10000000000000000) :
    takeSignificand significand digits = (Nat.ofDigitChars 10 digits significand, []) := by
  induction digits generalizing significand with
  | nil => rfl
  | cons c digits ih =>
    rw [Nat.ofDigitChars_cons] at h ⊢
    have hgrows : 10 * significand + (c.toNat - '0'.toNat) ≤
        Nat.ofDigitChars 10 digits (10 * significand + (c.toNat - '0'.toNat)) := by
      rw [Nat.ofDigitChars_eq_ofDigitChars_zero]
      exact Nat.le_add_right_of_le (Nat.le_mul_of_pos_left _ (by positivity))
    rw [takeSignificand, if_pos (by omega), ih h]

theorem wholeNumber_natAbs {i : Int} (h : IntegerRange i) :
    wholeNumber (i < 0) i.natAbs = .integer i h := by
  have hvalue : (if decide (i < 0) = true then -(i.natAbs : Int) else i.natAbs) = i := by
    simp only [decide_eq_true_eq]
    omega
  have hsign : decide (i < 0) = true → i.natAbs ≠ 0 := by
    simp only [decide_eq_true_eq]
    omega
  unfold wholeNumber
  simp only [hvalue]
  rw [dif_pos ⟨hsign, h⟩]

theorem value?_integerText {i : Int} (h : IntegerRange i) :
    (integerText i).value? = some (.integer i h) := by
  have hdigits : Nat.ofDigitChars 10 (Nat.toDigits 10 i.natAbs) 0 = i.natAbs :=
    Nat.ofDigitChars_ten_toDigits
  have hfits : Nat.ofDigitChars 10 (Nat.toDigits 10 i.natAbs) 0 < 0x10000000000000000 := by
    unfold IntegerRange at h
    omega
  simp [NumberText.value?, integerText, takeSignificand_eq hfits, hdigits, wholeNumber_natAbs h]

theorem readNumber?_intText {i : Int} (h : IntegerRange i) (hrest : EndsNumber rest) :
    readNumber? (Layout.intText i ++ rest) = some (.integer i h, rest) := by
  simp [readNumber?, read?_intText i hrest, value?_integerText h]

/-! ### Scalars -/

/-- Whether a value is neither nested nor a floating-point number, so that its text is exact. -/
def isSimple : Json → Bool
  | .null | .bool _ | .integer _ _ | .string _ => true
  | .float _ | .array _ | .object _ => false

theorem intText_eq_cons (i : Int) : ∃ c cs, Layout.intText i = c :: cs ∧
    (c.isDigit = true ∨ c = '-') := by
  obtain ⟨d, ds, hd, hdigit⟩ := Layout.toDigits_eq_cons i.natAbs
  unfold Layout.intText
  split
  · exact ⟨'-', _, rfl, .inr rfl⟩
  · exact ⟨d, ds, hd, .inl hdigit⟩

theorem readScalar?_of_number (hc : c.isDigit = true ∨ c = '-') (cs : List Char) :
    readScalar? (c :: cs) = readNumber? (c :: cs) := by
  unfold readScalar?
  split
  case h_5 => rfl
  all_goals
    rename_i heq
    cases heq
    exact absurd hc (by decide)

theorem readScalar?_chars {j : Json} (hj : j.isSimple = true) (hrest : EndsNumber rest) :
    readScalar? (j.chars ++ rest) = some (j, rest) := by
  cases j with
  | null => rfl
  | bool b => cases b <;> rfl
  | integer i h =>
    have hread := readNumber?_intText h hrest
    obtain ⟨c, cs, hc, hstart⟩ := intText_eq_cons i
    rw [chars]
    rw [hc, List.cons_append] at hread ⊢
    rw [readScalar?_of_number hstart, hread]
  | string s =>
    have hread := readText?_stringText s rest
    rw [chars]
    rw [stringText, List.cons_append, List.cons_append] at hread ⊢
    rw [readScalar?, hread]
    rfl
  | float | array | object => cases hj

theorem skipSpaces_cons (hc : isSpace c = false) (cs : List Char) :
    skipSpaces (c :: cs) = c :: cs := by
  rw [skipSpaces, List.dropWhile_cons, if_neg (by simp [hc])]

theorem skipSpaces_chars {j : Json} (hj : j.isSimple = true) (rest : List Char) :
    skipSpaces (j.chars ++ rest) = j.chars ++ rest := by
  cases j with
  | null => rfl
  | bool b => cases b <;> rfl
  | integer i h =>
    obtain ⟨c, cs, hc, hstart⟩ := intText_eq_cons i
    have hblank : isSpace c = false := by
      rw [Bool.eq_false_iff]
      intro hspace
      simp only [isSpace, Bool.or_eq_true, beq_iff_eq] at hspace
      rcases hspace with ((rfl | rfl) | rfl) | rfl <;> exact absurd hstart (by decide)
    rw [chars, hc, List.cons_append, skipSpaces_cons hblank]
  | string s => rfl
  | float | array | object => cases hj

theorem readKey?_stringText (key : String) (rest : List Char) :
    readKey? (stringText key ++ ':' :: rest) = some (key, rest) := by
  have hread := readText?_stringText key (':' :: rest)
  have hspaces : skipSpaces (stringText key ++ ':' :: rest) = stringText key ++ ':' :: rest := rfl
  have hcolon : skipSpaces (':' :: rest) = ':' :: rest := rfl
  simp [readKey?, hspaces, hread, hcolon]

end FieldGraph.Json
