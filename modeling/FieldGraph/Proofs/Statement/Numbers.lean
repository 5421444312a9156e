import FieldGraph.Proofs.Statement.Continuing

/-!
# The text of a number

The lexer reads a number piece by piece: digits, a fraction and an exponent. The characters of these
pieces, which all take one byte, are read as the same number as a whole.
-/
namespace FieldGraph

variable {cs whole part tail : List Char}

def pointText (part : List Char) : List Char := if part = [] then [] else '.' :: part

def numberText (cs : List Char) : List Char × Bool :=
  let (whole, rest) := Numeral.spanDigits cs
  let (part, rest) := Lexer.fraction rest
  match Lexer.exponent rest with
  | some (_, n) => (whole ++ (pointText part ++ rest.take n), true)
  | none => (whole ++ pointText part, part ≠ [])

namespace Numeral

theorem isDigit_of_mem_spanDigits {c : Char} (h : c ∈ (spanDigits cs).1) : c.isDigit = true := by
  have hall := List.all_takeWhile (l := cs) (p := Char.isDigit)
  exact List.all_eq_true.mp hall c h

theorem spanDigits_split (cs : List Char) : cs = (spanDigits cs).1 ++ (spanDigits cs).2 :=
  List.takeWhile_append_dropWhile.symm

theorem startsWithDigit_spanDigits (h : startsWithDigit cs = true) :
    startsWithDigit (spanDigits cs).1 = true := by
  cases cs with
  | nil => cases h
  | cons c cs =>
    have hc : c.isDigit = true := h
    rw [spanDigits, List.takeWhile_cons_of_pos hc]
    exact hc

theorem spanDigits_ne_nil (h : startsWithDigit cs = true) : (spanDigits cs).1 ≠ [] := by
  have hfirst := startsWithDigit_spanDigits h
  rintro hnil
  rw [hnil] at hfirst
  cases hfirst

theorem not_isDigit_after_spanDigits (cs : List Char) :
    ∀ c ∈ (spanDigits cs).2.head?, c.isDigit = false := by
  intro c hc
  have hnot := List.head?_dropWhile_not Char.isDigit cs
  rw [spanDigits, Option.mem_def] at hc
  simpa [hc] using hnot

theorem spanSign_split (cs : List Char) : cs = (spanSign cs).1.toList ++ (spanSign cs).2 := by
  unfold spanSign
  split <;> rfl

theorem spanSign_of_startsWithDigit (h : startsWithDigit cs = true) : spanSign cs = (none, cs) := by
  unfold spanSign
  split
  case h_1 =>
    have hplus : Char.isDigit '+' = true := h
    exact absurd hplus (by decide)
  case h_2 =>
    have hminus : Char.isDigit '-' = true := h
    exact absurd hminus (by decide)
  case h_3 => rfl

theorem sign_of_spanSign {s : Char} {digits : List Char} (h : spanSign cs = (some s, digits)) :
    s = '+' ∨ s = '-' := by
  unfold spanSign at h
  split at h
  case h_1 =>
    cases h
    exact .inl rfl
  case h_2 =>
    cases h
    exact .inr rfl
  case h_3 => cases h

theorem spanSign_of_sign {cs digits : List Char} {sign : Option Char}
    (h : spanSign cs = (sign, digits)) (hdigit : startsWithDigit tail = true) :
    spanSign (sign.toList ++ tail) = (sign, tail) := by
  unfold spanSign at h
  split at h
  case h_1 =>
    cases h
    rfl
  case h_2 =>
    cases h
    rfl
  case h_3 =>
    cases h
    exact spanSign_of_startsWithDigit hdigit

theorem head_of_exponent? {e : Int} (h : exponent? tail = some e) :
    ∀ c ∈ tail.head?, c = 'e' ∨ c = 'E' := by
  cases tail with
  | nil => simp
  | cons c tail =>
    unfold exponent? at h
    dsimp only at h
    split at h
    case isTrue hletter => simpa using hletter.1
    case isFalse => cases h

theorem int64?_digits (hne : whole ≠ []) (hdigits : ∀ c ∈ whole, c.isDigit = true) :
    int64? whole = if ofDigits whole < 0x8000000000000000 then
      some (Int64.ofNat (ofDigits whole)) else none := by
  obtain ⟨c, cs, rfl⟩ := List.exists_cons_of_ne_nil hne
  have hfirst : startsWithDigit (c :: cs) = true := hdigits c List.mem_cons_self
  have hsign := spanSign_of_startsWithDigit hfirst
  have hall : (c :: cs).all Char.isDigit = true := List.all_eq_true.mpr hdigits
  have hvalue : signed none (c :: cs) = ofDigits (c :: cs) := if_neg (by simp)
  rw [int64?, hsign]
  dsimp only
  rw [hall, hvalue]
  by_cases hsmall : ofDigits (c :: cs) < 0x8000000000000000
  · rw [if_pos hsmall, if_pos ⟨hne, rfl, by omega, by omega⟩]
    rfl
  · rw [if_neg hsmall, if_neg]
    rintro ⟨_, _, _, hhigh⟩
    omega

theorem toLower_of_isDigit {c : Char} (h : c.isDigit = true) : c.toLower = c := by
  have hrange := Text.isDigit_iff.mp h
  refine dif_neg ?_
  rintro ⟨hlow, _⟩
  have hlow : 65 ≤ c.toNat := hlow
  omega

theorem binary64?_parts {e : Int} (hne : whole ≠ []) (hwhole : ∀ c ∈ whole, c.isDigit = true)
    (hpart : ∀ c ∈ part, c.isDigit = true) (htail : exponent? tail = some e) :
    binary64? (whole ++ (pointText part ++ tail)) = some (decimal false whole part e) := by
  have hend : ∀ c ∈ tail.head?, c.isDigit = false ∧ c ≠ '.' := by
    intro c hc
    rcases head_of_exponent? htail c hc with rfl | rfl <;> decide
  have hpoint : ∀ c ∈ (pointText part ++ tail).head?, c.isDigit = false := by
    cases part with
    | nil => exact fun c hc => (hend c hc).1
    | cons d part => simp [pointText]
  obtain ⟨htake, hdrop⟩ := Text.takeWhile_append_of_head (pointText part ++ tail) hwhole hpoint
  obtain ⟨htakePart, hdropPart⟩ :=
    Text.takeWhile_append_of_head tail hpart fun c hc => (hend c hc).1
  have hunsigned : unsigned? false (whole ++ (pointText part ++ tail)) =
      some (decimal false whole part e) := by
    rw [unsigned?, spanDigits, htake, hdrop]
    cases part with
    | nil =>
      cases tail with
      | nil => simp [pointText, hne, htail]
      | cons c tail =>
        have hc := (hend c rfl).2
        simp [pointText, hne, htail, hc]
    | cons d part =>
      have htext : pointText (d :: part) ++ tail = '.' :: (d :: part ++ tail) := rfl
      have hspan : spanDigits (d :: part ++ tail) = (d :: part, tail) := by
        rw [spanDigits, htakePart, hdropPart]
      simp only [htext, hspan]
      rw [if_neg (fun hnil => hne hnil.1), htail]
      rfl
  obtain ⟨c, cs, rfl⟩ := List.exists_cons_of_ne_nil hne
  have hdigit := hwhole c List.mem_cons_self
  have hname : ∀ word ∈ ["nan", "inf", "infinity"],
      String.ofList ((c :: cs ++ (pointText part ++ tail)).map Char.toLower) ≠ word := by
    rintro word hword rfl
    have hletter : ∀ word ∈ ["nan", "inf", "infinity"], ∃ d, word.toList.head? = some d ∧
        d.isDigit = false := by
      simp only [List.forall_mem_cons]
      exact ⟨⟨'n', rfl, rfl⟩, ⟨'i', rfl, rfl⟩, ⟨'i', rfl, rfl⟩, by simp⟩
    obtain ⟨d, hd, hnot⟩ := hletter _ hword
    obtain rfl : c = d := by simpa [toLower_of_isDigit hdigit] using hd
    rw [hdigit] at hnot
    cases hnot
  have hstart : startsWithDigit (c :: cs ++ (pointText part ++ tail)) = true := hdigit
  have hsign := spanSign_of_startsWithDigit hstart
  rw [binary64?, hsign]
  dsimp only
  split
  case h_1 h => exact absurd h (hname _ (by simp))
  case h_2 h => exact absurd h (hname _ (by simp))
  case h_3 h => exact absurd h (hname _ (by simp))
  case h_4 => exact hunsigned

end Numeral

namespace Lexer

theorem fraction_split (cs : List Char) :
    (∀ c ∈ (fraction cs).1, c.isDigit = true) ∧
      cs = pointText (fraction cs).1 ++ (fraction cs).2 := by
  unfold fraction
  split
  case h_1 cs =>
    split
    case isTrue hdigit =>
      refine ⟨fun c => Numeral.isDigit_of_mem_spanDigits, ?_⟩
      rw [pointText, if_neg (Numeral.spanDigits_ne_nil hdigit), List.cons_append,
        ← Numeral.spanDigits_split]
    case isFalse => exact ⟨by simp, rfl⟩
  case h_2 => exact ⟨by simp, rfl⟩

theorem not_isDigit_after_fraction (h : ∀ c ∈ cs.head?, c.isDigit = false) :
    ∀ c ∈ (fraction cs).2.head?, c.isDigit = false := by
  unfold fraction
  split
  case h_1 cs =>
    split
    case isTrue => exact Numeral.not_isDigit_after_spanDigits cs
    case isFalse => exact h
  case h_2 => exact h

theorem exponent_eq_some {e : Int} {n : Nat} (h : exponent cs = some (e, n)) :
    ∃ letter sign digits rest, cs = letter :: (sign.toList ++ (digits ++ rest)) ∧
      (letter = 'e' ∨ letter = 'E') ∧
      Numeral.spanSign (sign.toList ++ (digits ++ rest)) = (sign, digits ++ rest) ∧
      Numeral.startsWithDigit digits = true ∧ (∀ c ∈ digits, c.isDigit = true) ∧
      (∀ c ∈ rest.head?, c.isDigit = false) ∧ e = Numeral.signed sign digits ∧
      n = (sign.toList ++ digits).length + 1 ∧
      cs.take n = letter :: (sign.toList ++ digits) := by
  cases cs with
  | nil => cases h
  | cons c cs =>
    have hsplit := Numeral.spanSign_split cs
    have hdigits := Numeral.spanDigits_split (Numeral.spanSign cs).2
    rw [exponent] at h
    dsimp only at h
    split at h
    case isTrue hletter =>
      cases h
      simp only [Bool.and_eq_true, Bool.or_eq_true, beq_iff_eq] at hletter
      rw [hdigits] at hsplit
      have hsign : Numeral.spanSign cs = ((Numeral.spanSign cs).1,
          (Numeral.spanDigits (Numeral.spanSign cs).2).1 ++
            (Numeral.spanDigits (Numeral.spanSign cs).2).2) := by
        rw [← hdigits]
      have hlength : ∀ sign digits : List Char,
          1 + sign.length + digits.length = (sign ++ digits).length + 1 := by
        intro sign digits
        rw [List.length_append, Nat.add_assoc, Nat.add_comm]
      have htake : ∀ {sign digits rest : List Char}, cs = sign ++ (digits ++ rest) →
          cs.take (sign ++ digits).length = sign ++ digits := by
        rintro sign digits rest rfl
        rw [← List.append_assoc, List.take_left]
      refine ⟨c, _, _, _, congrArg _ hsplit, hletter.1, ?_, ?_, ?_, ?_, rfl, hlength _ _, ?_⟩
      · rw [← hsplit]
        exact hsign
      · exact Numeral.startsWithDigit_spanDigits hletter.2
      · exact fun c => Numeral.isDigit_of_mem_spanDigits
      · exact Numeral.not_isDigit_after_spanDigits _
      · rw [hlength, List.take_succ_cons]
        exact congrArg _ (htake hsplit)
    case isFalse => cases h

theorem exponent?_of_exponent {e : Int} {n : Nat} (h : exponent cs = some (e, n)) :
    Numeral.exponent? (cs.take n) = some e := by
  obtain ⟨letter, sign, digits, rest, _, hletter, hsign, hfirst, hdigits, _, rfl, _, htake⟩ :=
    exponent_eq_some h
  have hne : digits ≠ [] := by
    rintro rfl
    cases hfirst
  have hall : digits.all Char.isDigit = true := List.all_eq_true.mpr hdigits
  rw [htake, Numeral.exponent?, Numeral.spanSign_of_sign hsign hfirst]
  exact if_pos ⟨hletter, hne, hall⟩

/-- The characters of a number are digits, a fraction, and an exponent if one comes next. -/
theorem numberText_eq (cs : List Char) : ∃ whole part rest,
    cs = whole ++ (pointText part ++ rest) ∧ (∀ c ∈ whole, c.isDigit = true) ∧
      (∀ c ∈ part, c.isDigit = true) ∧ (∀ c ∈ rest.head?, c.isDigit = false) ∧
      (part = [] → fraction rest = ([], rest)) ∧
      numberText cs = match exponent rest with
        | some (_, n) => (whole ++ (pointText part ++ rest.take n), true)
        | none => (whole ++ pointText part, part ≠ []) := by
  have hcs := Numeral.spanDigits_split cs
  obtain ⟨hpart, hrest⟩ := fraction_split (Numeral.spanDigits cs).2
  have hend := not_isDigit_after_fraction (Numeral.not_isDigit_after_spanDigits cs)
  refine ⟨_, _, _, ?_, fun c => Numeral.isDigit_of_mem_spanDigits, hpart, hend, ?_, rfl⟩
  · rw [← hrest]
    exact hcs
  · intro hnil
    rw [hnil] at hrest
    have hsame : (Numeral.spanDigits cs).2 = (fraction (Numeral.spanDigits cs).2).2 := hrest
    rw [← hsame]
    exact Prod.ext hnil hsame.symm

theorem numberText_ne_nil (h : Numeral.startsWithDigit cs = true) : (numberText cs).1 ≠ [] := by
  have hne := Numeral.spanDigits_ne_nil h
  unfold numberText
  dsimp only
  split <;> simp [hne]

theorem number_eq_read (h : Numeral.startsWithDigit cs = true) :
    (((numberText cs).2 = true ∧ ∃ x, Numeral.binary64? (numberText cs).1 = some x ∧
        number cs = .ok (.float x, (numberText cs).1.length)) ∨
      ((numberText cs).2 = false ∧ number cs = match Numeral.int64? (numberText cs).1 with
        | some i => .ok (.integer i, (numberText cs).1.length)
        | none => .error (.integerOutOfRange (String.ofList (numberText cs).1)))) := by
  have hne := Numeral.spanDigits_ne_nil h
  have hwhole : ∀ c ∈ (Numeral.spanDigits cs).1, c.isDigit = true :=
    fun c => Numeral.isDigit_of_mem_spanDigits
  obtain ⟨hpart, _⟩ := fraction_split (Numeral.spanDigits cs).2
  unfold numberText number
  dsimp only
  cases hexponent : exponent (fraction (Numeral.spanDigits cs).2).2 with
  | none =>
    have hnothing : Numeral.exponent? [] = some 0 := rfl
    have hread := Numeral.binary64?_parts hne hwhole hpart hnothing
    cases hfraction : (fraction (Numeral.spanDigits cs).2).1 with
    | nil =>
      have htext : (Numeral.spanDigits cs).1 ++ pointText [] = (Numeral.spanDigits cs).1 :=
        List.append_nil _
      refine .inr ⟨rfl, ?_⟩
      rw [htext, Numeral.int64?_digits hne hwhole]
      dsimp only
      split
      case isTrue => rfl
      case isFalse => rfl
    | cons d part =>
      rw [hfraction, List.append_nil] at hread
      refine .inl ⟨rfl, _, hread, ?_⟩
      simp [pointText]
      omega
  | some found =>
    obtain ⟨e, n⟩ := found
    have hread := Numeral.binary64?_parts hne hwhole hpart (exponent?_of_exponent hexponent)
    refine .inl ⟨rfl, _, hread, ?_⟩
    have hlength := length_of_exponent hexponent
    cases hfraction : (fraction (Numeral.spanDigits cs).2).1 with
    | nil => simp [pointText, hlength]
    | cons d part =>
      simp [pointText, hlength]
      omega

end Lexer

end FieldGraph
