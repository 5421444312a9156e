import FieldGraph.Number.Layout
import FieldGraph.Number.Numeral
import FieldGraph.Proofs.Number.Rounding
import Mathlib.Tactic.FieldSimp

/-!
# Number literals

The literal of a finite number is a decimal with a point or an exponent, and that decimal denotes
the number.
-/
namespace FieldGraph

namespace Numeral

theorem ofDigits_eq (cs : List Char) : ofDigits cs = Nat.ofDigitChars 10 cs 0 :=
  Nat.ofDigitChars_eq_foldl.symm

theorem ofDigits_toDigits (n : Nat) : ofDigits (Nat.toDigits 10 n) = n := by
  rw [ofDigits_eq, Nat.ofDigitChars_ten_toDigits]

theorem ofDigits_append_zeros (cs : List Char) (k : Nat) :
    ofDigits (cs ++ List.replicate k '0') = ofDigits cs * 10 ^ k := by
  rw [ofDigits_eq, ofDigits_eq, Nat.ofDigitChars_append, Nat.ofDigitChars_replicate_zero,
    Nat.mul_comm]

theorem ofDigits_zeros_append (k : Nat) (cs : List Char) :
    ofDigits (List.replicate k '0' ++ cs) = ofDigits cs := by
  rw [ofDigits_eq, ofDigits_eq, Nat.ofDigitChars_append, Nat.ofDigitChars_replicate_zero,
    Nat.mul_zero]

end Numeral

def Finite64.abs (x : Finite64) : Finite64 := { x with negative := false }

theorem Finite64.eq_abs_of_not_negative {x : Finite64} (h : x.negative = false) : x.abs = x := by
  cases x
  simp_all [Finite64.abs]

theorem Finite64.neg_abs_of_negative {x : Finite64} (h : x.negative = true) : x.abs.neg = x := by
  cases x
  simp_all [Finite64.abs, Finite64.neg]

theorem Finite64.abs_of_isZero {x : Finite64} (h : x.isZero = true) : x.abs = .zero false := by
  obtain ⟨negative, m, q, hcanon⟩ := x
  obtain rfl : m = 0 := by simpa [Finite64.isZero] using h
  obtain rfl : q = -1074 := by
    rcases hcanon.2.2.2 with h | h
    · exact h
    · omega
  rfl

namespace Decimal

theorem nearer_eq (tie : Tie) (n d low : Nat) :
    nearer tie n d low = low ∨ nearer tie n d low = low + 1 := by
  unfold nearer
  split
  · exact .inl rfl
  · split
    · exact .inr rfl
    · cases tie with
      | up => exact .inr rfl
      | even =>
        dsimp only
        split
        · exact .inl rfl
        · exact .inr rfl

theorem onGrid?_standsFor {tie : Tie} {x : Finite64} {e : Int} {d : Decimal}
    (h : onGrid? tie x e = some d) : standsFor x d = true := by
  unfold onGrid? at h
  dsimp only at h
  split at h
  case h_1 hlow hhigh =>
    cases h
    rcases nearer_eq tie (scaleByTen x.ratio.1 x.ratio.2 e).1 (scaleByTen x.ratio.1 x.ratio.2 e).2
      ((scaleByTen x.ratio.1 x.ratio.2 e).1 / (scaleByTen x.ratio.1 x.ratio.2 e).2) with hn | hn
    · rw [hn]
      exact hlow
    · rw [hn]
      exact hhigh
  case h_2 hlow _ =>
    cases h
    exact hlow
  case h_3 _ hhigh =>
    cases h
    exact hhigh
  case h_4 => cases h

theorem exact_standsFor {x : Finite64} (hx : x.isZero = false) :
    standsFor x (exact x) = true := by
  have hm : 0 < x.mantissa := by
    simp only [Finite64.isZero, beq_eq_false_iff_ne] at hx
    omega
  have hval : ((exact x).digits : ℚ) * 10 ^ (exact x).exponent.toNat =
      x.mantissa * 2 ^ x.exponent * 10 ^ (-(exact x).exponent).toNat := by
    unfold exact
    by_cases hq : 0 ≤ x.exponent
    · obtain ⟨k, hk⟩ := Int.eq_ofNat_of_zero_le hq
      simp [hk]
    · obtain ⟨k, hk⟩ : ∃ k : Nat, x.exponent = -k := ⟨(-x.exponent).toNat, by omega⟩
      have hten : (10 : ℚ) ^ k = 2 ^ k * 5 ^ k := by
        rw [← mul_pow]
        norm_num
      have hpos : 0 < k := by omega
      simp [hk, hpos.ne', hten]
      field_simp
  simp only [standsFor, beq_iff_eq]
  rw [Binary64.ofDecimal_eq_ofRatio]
  refine Binary64.ofRatio_eq_finite x (by positivity) hm ?_
  exact_mod_cast hval

/-- The shortest decimal of a number denotes it. -/
theorem shortest_standsFor (tie : Tie) {x : Finite64} (hx : x.isZero = false) :
    standsFor x (shortest tie x) = true := by
  unfold shortest
  dsimp only
  split
  case h_1 d hd =>
    obtain ⟨n, _, hn⟩ := List.exists_of_findSome?_eq_some hd
    exact onGrid?_standsFor hn
  case h_2 => exact exact_standsFor hx

theorem ofDecimal_shortest (tie : Tie) {x : Finite64} (hx : x.isZero = false) :
    Binary64.ofDecimal false (shortest tie x).digits (shortest tie x).exponent =
      .finite x.abs := by
  have h : Binary64.ofDecimal x.negative (shortest tie x).digits (shortest tie x).exponent =
      .finite x := by simpa [standsFor] using shortest_standsFor tie hx
  cases hneg : x.negative with
  | false => rw [← hneg, h, Finite64.eq_abs_of_not_negative hneg]
  | true =>
    have hflip := Binary64.ofDecimal_neg x.negative (shortest tie x).digits
      (shortest tie x).exponent
    rw [h, hneg] at hflip
    simp only [Bool.not_true] at hflip
    rw [hflip]
    cases x
    simp_all [Binary64.neg, Finite64.neg, Finite64.abs]

end Decimal

/-- An unsigned decimal with its fraction and its exponent, either of which may be missing. -/
structure Spelling where
  whole : List Char
  part : List Char
  exponent : Option Int

namespace Spelling

def fractionText (s : Spelling) : List Char :=
  match s.part with
  | [] => []
  | part => '.' :: part

def exponentText (s : Spelling) : List Char :=
  match s.exponent with
  | none => []
  | some e => 'e' :: Layout.intText e

def text (s : Spelling) : List Char := s.whole ++ (s.fractionText ++ s.exponentText)

def value (s : Spelling) : Binary64 := Numeral.decimal false s.whole s.part (s.exponent.getD 0)

/-- What makes the decimal a floating-point number is its point or its exponent. -/
structure Valid (s : Spelling) : Prop where
  whole_ne : s.whole ≠ []
  whole_digits : ∀ c ∈ s.whole, c.isDigit = true
  part_digits : ∀ c ∈ s.part, c.isDigit = true
  marked : s.part ≠ [] ∨ s.exponent ≠ none

theorem Valid.text_eq_cons {s : Spelling} (h : s.Valid) :
    ∃ d ds, s.text = d :: ds ∧ d.isDigit = true := by
  obtain ⟨d, ds, hd⟩ := List.exists_cons_of_ne_nil h.whole_ne
  exact ⟨d, ds ++ (s.fractionText ++ s.exponentText), by simp [text, hd],
    h.whole_digits d (hd ▸ List.mem_cons_self)⟩

end Spelling

namespace Layout

theorem mem_toDigits_isDigit {n : Nat} {c : Char} (h : c ∈ Nat.toDigits 10 n) :
    c.isDigit = true :=
  Nat.isDigit_of_mem_toDigits (by norm_num) (by norm_num) h

theorem toDigits_eq_cons (n : Nat) :
    ∃ d ds, Nat.toDigits 10 n = d :: ds ∧ d.isDigit = true := by
  obtain ⟨d, ds, hd⟩ := List.exists_cons_of_ne_nil (Nat.toDigits_ne_nil (b := 10) (n := n))
  exact ⟨d, ds, hd, mem_toDigits_isDigit (n := n) (hd ▸ List.mem_cons_self)⟩

theorem significant_append_zeros (d : Decimal) :
    ∃ z, Nat.toDigits 10 d.digits = significant d ++ List.replicate z '0' := by
  obtain ⟨zeros, hz⟩ : ∃ zeros, zeros =
    (Nat.toDigits 10 d.digits).reverse.takeWhile (· == '0') := ⟨_, rfl⟩
  have hsplit : Nat.toDigits 10 d.digits = significant d ++ zeros.reverse := by
    rw [significant, hz, ← List.reverse_append, List.takeWhile_append_dropWhile,
      List.reverse_reverse]
  have hall : ∀ c ∈ zeros.reverse, c = '0' := by
    intro c hc
    rw [List.mem_reverse, hz] at hc
    have hall := List.all_eq_true.mp (List.all_takeWhile (p := (· == '0'))) c hc
    simpa using hall
  exact ⟨_, hsplit.trans (congrArg _ (List.eq_replicate_of_mem hall))⟩

theorem pointBefore_spelling {digits : List Char} {e : Int} {b : Binary64} (hne : digits ≠ [])
    (hdigits : ∀ c ∈ digits, c.isDigit = true)
    (hval : Binary64.ofDecimal false (Numeral.ofDigits digits) e = b)
    (hpoint : digits.length + e ≤ 0) :
    ∃ s : Spelling, s.Valid ∧
      ['0', '.'] ++ List.replicate (-(digits.length + e)).toNat '0' ++ digits = s.text ∧
      s.value = b := by
  refine ⟨⟨['0'], List.replicate (-(digits.length + e)).toNat '0' ++ digits, none⟩,
    ⟨by simp, by simp, ?_, by simp [hne]⟩, ?_, ?_⟩
  · intro c hc
    rcases List.mem_append.mp hc with hc | hc
    · rw [List.eq_of_mem_replicate hc]
      rfl
    · exact hdigits c hc
  · cases hcs : List.replicate (-(digits.length + e)).toNat '0' ++ digits with
    | nil => simp [hne] at hcs
    | cons c cs => simp [Spelling.text, Spelling.fractionText, Spelling.exponentText, ← hcs]
  · have hzeros := Numeral.ofDigits_zeros_append (1 + (-(digits.length + e)).toNat) digits
    rw [List.replicate_add, List.append_assoc, List.replicate_one] at hzeros
    rw [← hval]
    simp only [Spelling.value, Numeral.decimal, hzeros]
    congr 1
    simp
    omega

theorem pointAfter_spelling {digits : List Char} {k : Nat} {b : Binary64} (hne : digits ≠ [])
    (hdigits : ∀ c ∈ digits, c.isDigit = true)
    (hval : Binary64.ofDecimal false (Numeral.ofDigits digits) k = b) :
    ∃ s : Spelling, s.Valid ∧ digits ++ List.replicate k '0' ++ ['.', '0'] = s.text ∧
      s.value = b := by
  refine ⟨⟨digits ++ List.replicate k '0', ['0'], none⟩,
    ⟨by simp [hne], ?_, by simp, by simp⟩, ?_, ?_⟩
  · intro c hc
    rcases List.mem_append.mp hc with hc | hc
    · exact hdigits c hc
    · rw [List.eq_of_mem_replicate hc]
      rfl
  · simp [Spelling.text, Spelling.fractionText, Spelling.exponentText]
  · have hzeros : Numeral.ofDigits (digits ++ List.replicate k '0' ++ ['0']) =
        Numeral.ofDigits digits * 10 ^ (k + 1) := by
      rw [← Numeral.ofDigits_append_zeros, List.append_assoc, List.replicate_succ']
    rw [← hval]
    simp only [Spelling.value, Numeral.decimal, hzeros, Binary64.ofDecimal_mul_pow]
    congr 1
    simp

theorem pointWithin_spelling {digits : List Char} {e : Int} {b : Binary64}
    (hdigits : ∀ c ∈ digits, c.isDigit = true)
    (hval : Binary64.ofDecimal false (Numeral.ofDigits digits) e = b)
    (hfirst : 0 < digits.length + e) (hlast : e < 0) :
    ∃ s : Spelling, s.Valid ∧
      digits.take (digits.length + e).toNat ++ '.' :: digits.drop (digits.length + e).toNat =
        s.text ∧ s.value = b := by
  have hdrop : digits.drop (digits.length + e).toNat ≠ [] := by
    simp
    omega
  have htake : digits.take (digits.length + e).toNat ≠ [] := by
    rw [Ne, List.take_eq_nil_iff, not_or]
    refine ⟨by omega, ?_⟩
    rintro rfl
    simp at hdrop
  refine ⟨⟨digits.take (digits.length + e).toNat, digits.drop (digits.length + e).toNat, none⟩,
    ⟨htake, fun c hc => hdigits c (List.mem_of_mem_take hc),
      fun c hc => hdigits c (List.mem_of_mem_drop hc), .inl hdrop⟩, ?_, ?_⟩
  · cases hcs : digits.drop (digits.length + e).toNat with
    | nil => exact absurd hcs hdrop
    | cons c cs => simp [Spelling.text, Spelling.fractionText, Spelling.exponentText]
  · rw [← hval]
    simp only [Spelling.value, Numeral.decimal, List.take_append_drop, List.length_drop]
    congr 1
    simp
    omega

theorem placePoint_spelling {digits : List Char} {e : Int} {b : Binary64} (hne : digits ≠ [])
    (hdigits : ∀ c ∈ digits, c.isDigit = true)
    (hval : Binary64.ofDecimal false (Numeral.ofDigits digits) e = b) :
    ∃ s : Spelling, s.Valid ∧ literal.placePoint digits (digits.length + e) = s.text ∧
      s.value = b := by
  unfold placePoint
  split
  case isTrue hpoint => exact pointBefore_spelling hne hdigits hval hpoint
  case isFalse hpoint =>
    split
    case isTrue hwhole =>
      obtain ⟨k, rfl⟩ : ∃ k : Nat, e = k := ⟨e.toNat, by omega⟩
      have hk : (digits.length + (k : Int)).toNat - digits.length = k := by omega
      rw [hk]
      exact pointAfter_spelling hne hdigits hval
    case isFalse hwhole => exact pointWithin_spelling hdigits hval (by omega) (by omega)

theorem scientific_spelling {digits : List Char} {e : Int} {b : Binary64} (hne : digits ≠ [])
    (hdigits : ∀ c ∈ digits, c.isDigit = true)
    (hval : Binary64.ofDecimal false (Numeral.ofDigits digits) e = b) :
    ∃ s : Spelling, s.Valid ∧ literal.scientific digits (digits.length + e) = s.text ∧
      s.value = b := by
  match digits with
  | [] => exact absurd rfl hne
  | [d] =>
    refine ⟨⟨[d], [], some e⟩, ⟨by simp, hdigits, by simp, by simp⟩, ?_, ?_⟩
    · simp [scientific, Spelling.text, Spelling.fractionText, Spelling.exponentText,
        exponentText, literal]
    · simpa [Spelling.value, Numeral.decimal] using hval
  | d :: d' :: rest =>
    refine ⟨⟨[d], d' :: rest, some (((d :: d' :: rest).length : Int) + e - 1)⟩,
      ⟨by simp, fun c hc => hdigits c (List.mem_of_mem_take (i := 1) hc),
        fun c hc => hdigits c (List.mem_cons_of_mem _ hc), by simp⟩, ?_, ?_⟩
    · simp [scientific, Spelling.text, Spelling.fractionText, Spelling.exponentText,
        exponentText, literal]
    · rw [← hval]
      simp only [Spelling.value, Numeral.decimal, Option.getD_some]
      congr 1
      simp
      omega

/-- The literal of a number without its sign is a decimal that denotes it. -/
theorem literal_magnitude (x : Finite64) :
    ∃ s : Spelling, s.Valid ∧ literal.magnitude x = s.text ∧ s.value = .finite x.abs := by
  unfold magnitude
  split
  case isTrue hz =>
    refine ⟨⟨['0'], ['0'], none⟩, ⟨by simp, by simp, by simp, by simp⟩, rfl, ?_⟩
    rw [Finite64.abs_of_isZero hz]
    rfl
  case isFalse hz =>
    have hread := Decimal.ofDecimal_shortest literal.tie (by simpa using hz)
    dsimp only
    obtain ⟨d, hd⟩ : ∃ d, Decimal.shortest literal.tie x = d := ⟨_, rfl⟩
    rw [hd] at hread ⊢
    obtain ⟨z, hz'⟩ := significant_append_zeros d
    have hdigits : ∀ c ∈ significant d, c.isDigit = true := fun c hc =>
      mem_toDigits_isDigit (n := d.digits) (hz' ▸ List.mem_append_left _ hc)
    have hnum : d.digits = Numeral.ofDigits (significant d) * 10 ^ z := by
      rw [← Numeral.ofDigits_append_zeros, ← hz', Numeral.ofDigits_toDigits]
    have hval : Binary64.ofDecimal false (Numeral.ofDigits (significant d)) (d.exponent + z) =
        .finite x.abs := by
      rw [← Binary64.ofDecimal_mul_pow, ← hnum, hread]
    have hne : significant d ≠ [] := by
      intro hnil
      rw [hnil] at hval
      have hzero : Finite64.zero false = x.abs := Binary64.finite.inj hval
      apply hz
      have := congrArg Finite64.mantissa hzero
      simpa [Finite64.isZero, Finite64.abs, Finite64.zero] using this.symm
    have hpoint : (Decimal.length d.digits : Int) + d.exponent =
        (significant d).length + (d.exponent + z) := by
      simp only [Decimal.length, hz', List.length_append, List.length_replicate]
      omega
    rw [hpoint]
    split
    · exact placePoint_spelling hne hdigits hval
    · exact scientific_spelling hne hdigits hval

end Layout

end FieldGraph
