import FieldGraph.Number.Binary64
import Mathlib.Algebra.Order.Field.Power
import Mathlib.Data.Rat.Cast.Order
import Mathlib.Tactic.Linarith
import Mathlib.Tactic.NormNum
import Mathlib.Tactic.Positivity
import Mathlib.Tactic.Ring

/-!
# Rounding quotients

The rounded quotient depends on the value of the quotient alone, a stored number is its own
rounding, and the limits of `ofDecimal` never change its result.
-/
namespace FieldGraph

/-- `q` is the exponent with which the quotient `num / den` is stored. -/
structure FitsExponent (num den : Nat) (q : Int) : Prop where
  least : -1074 ≤ q
  below : (num : ℚ) < 2 ^ (q + 53) * den
  full : q = -1074 ∨ (2 : ℚ) ^ (q + 52) * den ≤ num

theorem FitsExponent.le {num den : Nat} {p q : Int} (hd : 0 < den)
    (hp : FitsExponent num den p) (hq : FitsExponent num den q) : p ≤ q := by
  rcases hp.full with h | h
  · exact h ▸ hq.least
  · have hlt : (2 : ℚ) ^ (p + 52) * den < 2 ^ (q + 53) * den := lt_of_le_of_lt h hq.below
    have hden : (0 : ℚ) < den := by exact_mod_cast hd
    have := (zpow_lt_zpow_iff_right₀ (by norm_num)).mp (lt_of_mul_lt_mul_right hlt hden.le)
    omega

theorem FitsExponent.unique {num den : Nat} {p q : Int} (hd : 0 < den)
    (hp : FitsExponent num den p) (hq : FitsExponent num den q) : p = q :=
  le_antisymm (hp.le hd hq) (hq.le hd hp)

theorem FitsExponent.congr {num den num' den' : Nat} {q : Int} (hd : 0 < den) (hd' : 0 < den')
    (heq : num * den' = num' * den) (h : FitsExponent num den q) : FitsExponent num' den' q := by
  have hden : (0 : ℚ) < den := by exact_mod_cast hd
  have hden' : (0 : ℚ) < den' := by exact_mod_cast hd'
  have hq : (num : ℚ) * den' = num' * den := by exact_mod_cast heq
  refine ⟨h.least, ?_, h.full.imp_right fun hf => ?_⟩
  · have := mul_lt_mul_of_pos_right h.below hden'
    exact lt_of_mul_lt_mul_right (by linarith) hden.le
  · have := mul_le_mul_of_nonneg_right hf hden'.le
    exact le_of_mul_le_mul_right (by linarith) hden

theorem scaleByTwo_den_pos {den : Nat} (num : Nat) (q : Int) (hd : 0 < den) :
    0 < (scaleByTwo num den q).2 :=
  Nat.mul_pos hd (Nat.two_pow_pos _)

/-- The scaled quotient is the quotient divided by `2 ^ q`. -/
theorem scaleByTwo_ratio (num den : Nat) (q : Int) :
    ((scaleByTwo num den q).1 : ℚ) * 2 ^ q * den = num * (scaleByTwo num den q).2 := by
  obtain ⟨k, rfl | rfl⟩ := q.eq_nat_or_neg
  · simp [scaleByTwo]
    ring
  · have h : (2 : ℚ) ^ k ≠ 0 := by positivity
    simp [scaleByTwo, h]

theorem scaleByTwo_lt_iff {den : Nat} (num : Nat) (q : Int) (hd : 0 < den) :
    (scaleByTwo num den q).1 < (scaleByTwo num den q).2 ↔ (num : ℚ) < 2 ^ q * den := by
  have hs := scaleByTwo_ratio num den q
  have hn : (0 : ℚ) < (scaleByTwo num den q).2 := by
    exact_mod_cast scaleByTwo_den_pos num q hd
  have hp : (0 : ℚ) < 2 ^ q * den := by positivity
  rw [← Nat.cast_lt (α := ℚ)]
  constructor
  · intro h
    have := mul_lt_mul_of_pos_right h hp
    exact lt_of_mul_lt_mul_right (by linarith) hn.le
  · intro h
    have := mul_lt_mul_of_pos_right h hn
    exact lt_of_mul_lt_mul_right (by linarith) hp.le

/-- The scaled quotient has 53 bits before the point, or fewer at the least exponent. -/
theorem FitsExponent.scaled {num den : Nat} {q : Int} (hd : 0 < den)
    (h : FitsExponent num den q) :
    (scaleByTwo num den q).1 < 0x20000000000000 * (scaleByTwo num den q).2 ∧
    (q = -1074 ∨ 0x10000000000000 * (scaleByTwo num den q).2 ≤ (scaleByTwo num den q).1) := by
  have hs := scaleByTwo_ratio num den q
  have hn : (0 : ℚ) < (scaleByTwo num den q).2 := by
    exact_mod_cast scaleByTwo_den_pos num q hd
  have hp : (0 : ℚ) < 2 ^ q * den := by positivity
  have split53 : (2 : ℚ) ^ (q + 53) = 2 ^ q * 0x20000000000000 := by
    rw [zpow_add₀ (by norm_num)]
    norm_num
  have split52 : (2 : ℚ) ^ (q + 52) = 2 ^ q * 0x10000000000000 := by
    rw [zpow_add₀ (by norm_num)]
    norm_num
  refine ⟨?_, h.full.imp_right fun hf => ?_⟩
  · have := mul_lt_mul_of_pos_right (split53 ▸ h.below) hn
    have hlt : ((scaleByTwo num den q).1 : ℚ) < 0x20000000000000 * (scaleByTwo num den q).2 :=
      lt_of_mul_lt_mul_right (by linarith) hp.le
    exact_mod_cast hlt
  · have := mul_le_mul_of_nonneg_right (split52 ▸ hf) hn.le
    have hle : (0x10000000000000 : ℚ) * (scaleByTwo num den q).2 ≤ (scaleByTwo num den q).1 :=
      le_of_mul_le_mul_right (by linarith) hp
    exact_mod_cast hle

theorem two_zpow_split (a b : Int) : (2 : ℚ) ^ (a + b) = 2 ^ a * 2 ^ b :=
  zpow_add₀ (by norm_num) a b

/-- The logarithms of numerator and denominator give that of the quotient up to one. -/
theorem log2_estimate {num den : Nat} (hn : 0 < num) (hd : 0 < den) {e : Int}
    (he : e = (num.log2 : Int) - den.log2) :
    (2 : ℚ) ^ (e - 1) * den ≤ num ∧ (num : ℚ) < 2 ^ (e + 1) * den := by
  have numLow : (2 : ℚ) ^ num.log2 ≤ num := by exact_mod_cast Nat.log2_self_le hn.ne'
  have numHigh : (num : ℚ) < 2 ^ (num.log2 + 1) := by exact_mod_cast Nat.lt_log2_self
  have denLow : (2 : ℚ) ^ den.log2 ≤ den := by exact_mod_cast Nat.log2_self_le hd.ne'
  have denHigh : (den : ℚ) < 2 ^ (den.log2 + 1) := by exact_mod_cast Nat.lt_log2_self
  constructor
  · have hpow : (2 : ℚ) ^ num.log2 = 2 ^ (e - 1) * 2 ^ (den.log2 + 1) := by
      rw [← zpow_natCast, ← zpow_natCast, ← two_zpow_split]
      congr 1
      push_cast
      omega
    have : (2 : ℚ) ^ (e - 1) * den ≤ 2 ^ (e - 1) * 2 ^ (den.log2 + 1) :=
      mul_le_mul_of_nonneg_left denHigh.le (by positivity)
    linarith
  · have hpow : (2 : ℚ) ^ (num.log2 + 1) = 2 ^ (e + 1) * 2 ^ den.log2 := by
      rw [← zpow_natCast, ← zpow_natCast, ← two_zpow_split]
      congr 1
      push_cast
      omega
    have : (2 : ℚ) ^ (e + 1) * 2 ^ den.log2 ≤ 2 ^ (e + 1) * den :=
      mul_le_mul_of_nonneg_left denLow (by positivity)
    linarith

/-- The estimate leaves two candidates for the exponent, and one comparison decides between
them. -/
theorem exponentOf_fits {num den : Nat} (hn : 0 < num) (hd : 0 < den) :
    FitsExponent num den (exponentOf num den) := by
  obtain ⟨estimate, hest⟩ : ∃ e : Int, e = (num.log2 : Int) - den.log2 := ⟨_, rfl⟩
  obtain ⟨lower, upper⟩ := log2_estimate hn hd hest
  obtain ⟨e, he, below, full⟩ : ∃ e : Int, exponentOf num den = max (-1074) e ∧
      (num : ℚ) < 2 ^ (e + 53) * den ∧ (2 : ℚ) ^ (e + 52) * den ≤ num := by
    by_cases hlt : (scaleByTwo num den estimate).1 < (scaleByTwo num den estimate).2
    · refine ⟨estimate - 53, by simp [exponentOf, ← hest, hlt], ?_, ?_⟩
      · rw [show estimate - 53 + 53 = estimate by ring]
        exact (scaleByTwo_lt_iff num estimate hd).mp hlt
      · rwa [show estimate - 53 + 52 = estimate - 1 by ring]
    · refine ⟨estimate - 52, by simp [exponentOf, ← hest, hlt], ?_, ?_⟩
      · rwa [show estimate - 52 + 53 = estimate + 1 by ring]
      · rw [show estimate - 52 + 52 = estimate by ring]
        exact not_lt.mp (mt (scaleByTwo_lt_iff num estimate hd).mpr hlt)
  rw [he]
  refine ⟨le_max_left _ _, lt_of_lt_of_le below ?_, ?_⟩
  · exact mul_le_mul_of_nonneg_right
      (zpow_le_zpow_right₀ (by norm_num) (by omega)) (Nat.cast_nonneg _)
  · rcases max_choice (-1074) e with h | h
    · exact .inl h
    · exact .inr (by rwa [h])

theorem roundHalfEven_mul (n d : Nat) {k : Nat} (hk : 0 < k) :
    roundHalfEven (n * k) (d * k) = roundHalfEven n d := by
  have hlt : d * k < 2 * (n % d * k) ↔ d < 2 * (n % d) := by
    rw [show 2 * (n % d * k) = 2 * (n % d) * k by ring]
    exact Nat.mul_lt_mul_right hk
  have heq : 2 * (n % d * k) = d * k ↔ 2 * (n % d) = d := by
    rw [show 2 * (n % d * k) = 2 * (n % d) * k by ring]
    exact Nat.mul_right_cancel_iff hk
  simp only [roundHalfEven, Nat.mul_div_mul_right n d hk, Nat.mul_mod_mul_right k n d, hlt, heq]

theorem roundHalfEven_congr {n d n' d' : Nat} (hd : 0 < d) (hd' : 0 < d')
    (heq : n * d' = n' * d) : roundHalfEven n d = roundHalfEven n' d' := by
  rw [← roundHalfEven_mul n d hd', heq, Nat.mul_comm d d', roundHalfEven_mul n' d' hd]

theorem roundHalfEven_exact (m : Nat) {d : Nat} (hd : 0 < d) : roundHalfEven (m * d) d = m := by
  simp [roundHalfEven, Nat.mul_div_cancel m hd, hd.ne]

theorem roundHalfEven_le {n d k : Nat} (h : n < k * d) : roundHalfEven n d ≤ k := by
  have hd : 0 < d := Nat.pos_of_mul_pos_left (Nat.zero_lt_of_lt h)
  have hq : n / d < k := (Nat.div_lt_iff_lt_mul hd).mpr h
  unfold roundHalfEven
  dsimp only
  split <;> omega

theorem le_roundHalfEven {n d k : Nat} (hd : 0 < d) (h : k * d ≤ n) : k ≤ roundHalfEven n d := by
  have hq : k ≤ n / d := (Nat.le_div_iff_mul_le hd).mpr h
  unfold roundHalfEven
  dsimp only
  split <;> omega

namespace Binary64

theorem ofRatio_congr {num den num' den' : Nat} (negative : Bool) (hd : 0 < den) (hd' : 0 < den')
    (heq : num * den' = num' * den) : ofRatio negative num den = ofRatio negative num' den' := by
  by_cases hn : num = 0
  · have hn' : num' = 0 := by simpa [hn, hd.ne'] using heq.symm
    simp [ofRatio, hn, hn']
  have hn' : num' ≠ 0 := by
    rintro rfl
    simp [hd'.ne', hn] at heq
  have hexp : exponentOf num' den' = exponentOf num den :=
    (exponentOf_fits (Nat.pos_of_ne_zero hn') hd').unique hd'
      ((exponentOf_fits (Nat.pos_of_ne_zero hn) hd).congr hd hd' heq)
  have hround : ∀ q, roundHalfEven (scaleByTwo num den q).1 (scaleByTwo num den q).2 =
      roundHalfEven (scaleByTwo num' den' q).1 (scaleByTwo num' den' q).2 := by
    intro q
    refine roundHalfEven_congr (scaleByTwo_den_pos num q hd) (scaleByTwo_den_pos num' q hd') ?_
    simp only [scaleByTwo]
    calc num * Nat.pow 2 (-q).toNat * (den' * Nat.pow 2 q.toNat)
        = num * den' * (Nat.pow 2 (-q).toNat * Nat.pow 2 q.toNat) := by ring
      _ = num' * den * (Nat.pow 2 (-q).toNat * Nat.pow 2 q.toNat) := by rw [heq]
      _ = num' * Nat.pow 2 (-q).toNat * (den * Nat.pow 2 q.toNat) := by ring
  simp only [ofRatio, hn, hn', if_false, hexp, hround]

/-- A quotient with the value of a stored number is rounded to that number. -/
theorem ofRatio_eq_finite (x : Finite64) {num den : Nat} (hd : 0 < den) (hm : 0 < x.mantissa)
    (hval : (num : ℚ) = x.mantissa * 2 ^ x.exponent * den) :
    ofRatio x.negative num den = .finite x := by
  obtain ⟨hlt, hlow, hhigh, hfull⟩ := x.canonical
  have hden : (0 : ℚ) < den := by exact_mod_cast hd
  have hmant : (0 : ℚ) < x.mantissa := by exact_mod_cast hm
  have hn : num ≠ 0 := by
    rintro rfl
    have : (0 : ℚ) < x.mantissa * 2 ^ x.exponent * den := by positivity
    exact this.ne (by simpa using hval)
  have hfits : FitsExponent num den x.exponent := by
    refine ⟨hlow, ?_, hfull.imp_right fun h => ?_⟩
    · have : (x.mantissa : ℚ) < 2 ^ (53 : Int) := by
        norm_num
        exact_mod_cast hlt
      rw [hval, two_zpow_split, mul_comm ((2 : ℚ) ^ x.exponent)]
      gcongr
    · have : (2 : ℚ) ^ (52 : Int) ≤ x.mantissa := by
        norm_num
        exact_mod_cast h
      rw [hval, two_zpow_split, mul_comm ((2 : ℚ) ^ x.exponent)]
      gcongr
  have hexp := (exponentOf_fits (Nat.pos_of_ne_zero hn) hd).unique hd hfits
  have hscaled : (scaleByTwo num den x.exponent).1 =
      x.mantissa * (scaleByTwo num den x.exponent).2 := by
    have hs := scaleByTwo_ratio num den x.exponent
    rw [hval] at hs
    have hp : (0 : ℚ) < 2 ^ x.exponent * den := by positivity
    have : ((scaleByTwo num den x.exponent).1 : ℚ) =
        x.mantissa * (scaleByTwo num den x.exponent).2 :=
      mul_right_cancel₀ hp.ne' (by linarith)
    exact_mod_cast this
  have hround : roundHalfEven (scaleByTwo num den x.exponent).1
      (scaleByTwo num den x.exponent).2 = x.mantissa := by
    rw [hscaled, roundHalfEven_exact _ (scaleByTwo_den_pos num _ hd)]
  simp only [ofRatio, hn, if_false, hexp, hround, hlt.ne, ofParts, x.canonical, dif_pos]

theorem ofParts_neg (negative : Bool) (m : Nat) (q : Int) :
    ofParts (!negative) m q = (ofParts negative m q).neg := by
  unfold ofParts
  split <;> rfl

theorem ofRatio_neg (negative : Bool) (num den : Nat) :
    ofRatio (!negative) num den = (ofRatio negative num den).neg := by
  unfold ofRatio
  dsimp only
  split
  · rfl
  · split <;> exact ofParts_neg ..

theorem ofRatio_finite (negative : Bool) {num den : Nat} (hd : 0 < den)
    (hlt : (num : ℚ) < 2 ^ (1000 : Int) * den) : ∃ x, ofRatio negative num den = .finite x := by
  by_cases hn : num = 0
  · exact ⟨.zero negative, by simp [ofRatio, hn]⟩
  have hfits := exponentOf_fits (Nat.pos_of_ne_zero hn) hd
  have hden : (0 : ℚ) < den := by exact_mod_cast hd
  have hhigh : exponentOf num den ≤ 970 := by
    rcases hfits.full with h | h
    · omega
    · have := lt_of_mul_lt_mul_right (lt_of_le_of_lt h hlt) hden.le
      have := (zpow_lt_zpow_iff_right₀ (by norm_num)).mp this
      omega
  have hlow := hfits.least
  obtain ⟨hbelow, hfull⟩ := hfits.scaled hd
  have hle := roundHalfEven_le hbelow
  by_cases hcarry : roundHalfEven (scaleByTwo num den (exponentOf num den)).1
      (scaleByTwo num den (exponentOf num den)).2 = 0x20000000000000
  · have hcanon : CanonicalForm 0x10000000000000 (exponentOf num den + 1) :=
      ⟨by norm_num, by omega, by omega, .inr le_rfl⟩
    exact ⟨⟨negative, _, _, hcanon⟩, by
      simp only [ofRatio, hn, if_false, hcarry, if_true, ofParts, hcanon, dif_pos]⟩
  · have hcanon : CanonicalForm (roundHalfEven (scaleByTwo num den (exponentOf num den)).1
        (scaleByTwo num den (exponentOf num den)).2) (exponentOf num den) :=
      ⟨by omega, hlow, by omega, hfull.imp_right fun h =>
        le_roundHalfEven (scaleByTwo_den_pos num _ hd) h⟩
    exact ⟨⟨negative, _, _, hcanon⟩, by
      simp only [ofRatio, hn, if_false, hcarry, ofParts, hcanon, dif_pos]⟩

theorem ofRatio_infinite (negative : Bool) {num den j : Nat} (hd : 0 < den) (hj : 1024 ≤ j)
    (hle : 2 ^ j * den ≤ num) : ofRatio negative num den = .infinite negative := by
  have hden : (0 : ℚ) < den := by exact_mod_cast hd
  have hn : 0 < num := Nat.lt_of_lt_of_le (by positivity) hle
  have hfits := exponentOf_fits hn hd
  have hhigh : 971 < exponentOf num den := by
    have hle' : (2 : ℚ) ^ (j : Int) * den ≤ num := by
      rw [zpow_natCast]
      exact_mod_cast hle
    have := lt_of_mul_lt_mul_right (lt_of_le_of_lt hle' hfits.below) hden.le
    have := (zpow_lt_zpow_iff_right₀ (by norm_num)).mp this
    omega
  have hcanon : ∀ m, ¬ CanonicalForm m (exponentOf num den) := fun m h => by
    have := h.2.2.1
    omega
  have hcanon' : ∀ m, ¬ CanonicalForm m (exponentOf num den + 1) := fun m h => by
    have := h.2.2.1
    omega
  simp only [ofRatio, hn.ne', if_false, ofParts, hcanon, hcanon', dif_neg, not_false_eq_true,
    ite_self]

theorem ofRatio_zero (negative : Bool) {num den j : Nat} (hj : 1075 ≤ j)
    (h : num * 2 ^ j < den) : ofRatio negative num den = .finite (.zero negative) := by
  by_cases hn : num = 0
  · simp [ofRatio, hn]
  have hd : 0 < den := Nat.zero_lt_of_lt h
  have hfits : FitsExponent num den (-1074) := by
    refine ⟨le_rfl, ?_, .inl rfl⟩
    have hlt : (num : ℚ) * 2 ^ j < den := by exact_mod_cast h
    rw [show (-1074 + 53 : Int) = -((1021 : Nat) : Int) by norm_num, zpow_neg, zpow_natCast,
      inv_mul_eq_div, lt_div_iff₀ (by positivity)]
    refine lt_of_le_of_lt ?_ hlt
    gcongr
    · norm_num
    · omega
  have hexp := (exponentOf_fits (Nat.pos_of_ne_zero hn) hd).unique hd hfits
  obtain ⟨k, hk⟩ : ∃ k, (- -1074 : Int).toNat = k := ⟨_, rfl⟩
  have hsmall : num * 2 ^ k * 2 < den := by
    refine lt_of_le_of_lt ?_ h
    rw [Nat.mul_assoc, ← pow_succ]
    exact Nat.mul_le_mul_left _ (Nat.pow_le_pow_right (by norm_num) (by omega))
  have hround : roundHalfEven (num * 2 ^ k) den = 0 := by
    unfold roundHalfEven
    dsimp only
    rw [Nat.div_eq_of_lt (by omega), Nat.mod_eq_of_lt (by omega), if_neg (by omega)]
  have hparts : scaleByTwo num den (-1074) = (num * 2 ^ k, den) := by
    simp only [scaleByTwo, hk]
    simp
  have hcanon : CanonicalForm 0 (-1074) := by decide
  simp only [ofRatio, hn, if_false, hexp, hparts, hround, ofParts, hcanon, dif_pos,
    Finite64.zero]
  rfl

theorem two_pow_le_ten_pow (j : Nat) : 2 ^ (33 * j + 1) ≤ 10 ^ (10 * j + 1) :=
  calc 2 ^ (33 * j + 1) = (2 ^ 33) ^ j * 2 := by rw [pow_succ 2 (33 * j), pow_mul]
    _ ≤ (10 ^ 10) ^ j * 10 :=
      Nat.mul_le_mul (Nat.pow_le_pow_left (by norm_num) j) (by norm_num)
    _ = 10 ^ (10 * j + 1) := by rw [pow_succ 10 (10 * j), pow_mul]

theorem two_pow_le_five_pow (j : Nat) : 2 ^ (16 * j) ≤ 5 ^ (7 * j) :=
  calc 2 ^ (16 * j) = (2 ^ 16) ^ j := pow_mul 2 16 j
    _ ≤ (5 ^ 7) ^ j := Nat.pow_le_pow_left (by norm_num) j
    _ = 5 ^ (7 * j) := (pow_mul 5 7 j).symm

/-- The limits of the exponent only save work. -/
theorem ofDecimal_eq_ofRatio (negative : Bool) (n : Nat) (e : Int) :
    ofDecimal negative n e = ofRatio negative (n * 10 ^ e.toNat) (10 ^ (-e).toNat) := by
  unfold ofDecimal
  split
  case isTrue hn => simp [ofRatio, hn]
  case isFalse hn =>
  split
  case isTrue he =>
    obtain ⟨k, hk⟩ : ∃ k, e.toNat = k := ⟨_, rfl⟩
    have hneg : (-e).toNat = 0 := by omega
    refine (ofRatio_infinite negative (j := 33 * ((k - 1) / 10) + 1) (by positivity)
      (by omega) ?_).symm
    calc 2 ^ (33 * ((k - 1) / 10) + 1) * 10 ^ (-e).toNat
        = 2 ^ (33 * ((k - 1) / 10) + 1) := by rw [hneg, pow_zero, Nat.mul_one]
      _ ≤ 10 ^ (10 * ((k - 1) / 10) + 1) := two_pow_le_ten_pow _
      _ ≤ 10 ^ k := Nat.pow_le_pow_right (by norm_num) (by omega)
      _ ≤ n * 10 ^ k := Nat.le_mul_of_pos_left _ (Nat.pos_of_ne_zero hn)
      _ = n * 10 ^ e.toNat := by rw [hk]
  case isFalse he =>
  split
  case isTrue htiny =>
    obtain ⟨k, hk⟩ : ∃ k, (-e).toNat = k := ⟨_, rfl⟩
    have hpos : e.toNat = 0 := by omega
    refine (ofRatio_zero negative (j := 16 * (k / 7) + 350) (by omega) ?_).symm
    calc n * 10 ^ e.toNat * 2 ^ (16 * (k / 7) + 350)
        = n * 2 ^ (16 * (k / 7) + 350) := by rw [hpos, pow_zero, Nat.mul_one]
      _ < 2 ^ (n.log2 + 1) * 2 ^ (16 * (k / 7) + 350) :=
        Nat.mul_lt_mul_of_pos_right Nat.lt_log2_self (by positivity)
      _ = 2 ^ (n.log2 + 1 + (16 * (k / 7) + 350)) := (Nat.pow_add ..).symm
      _ ≤ 2 ^ (k + 16 * (k / 7)) := Nat.pow_le_pow_right (by norm_num) (by omega)
      _ = 2 ^ k * 2 ^ (16 * (k / 7)) := Nat.pow_add ..
      _ ≤ 2 ^ k * 5 ^ (7 * (k / 7)) := Nat.mul_le_mul_left _ (two_pow_le_five_pow _)
      _ ≤ 2 ^ k * 5 ^ k :=
        Nat.mul_le_mul_left _ (Nat.pow_le_pow_right (by norm_num) (Nat.mul_div_le k 7))
      _ = 10 ^ (-e).toNat := by rw [← Nat.mul_pow, hk]
  case isFalse => rfl

theorem ofDecimal_neg (negative : Bool) (n : Nat) (e : Int) :
    ofDecimal (!negative) n e = (ofDecimal negative n e).neg := by
  rw [ofDecimal_eq_ofRatio, ofDecimal_eq_ofRatio, ofRatio_neg]

/-- Zeros may be moved from the digits to the exponent. -/
theorem ofDecimal_mul_pow (negative : Bool) (n k : Nat) (e : Int) :
    ofDecimal negative (n * 10 ^ k) e = ofDecimal negative n (e + k) := by
  rw [ofDecimal_eq_ofRatio, ofDecimal_eq_ofRatio]
  refine ofRatio_congr negative (by positivity) (by positivity) ?_
  have hexp : k + e.toNat + (-(e + k)).toNat = (e + k).toNat + (-e).toNat := by omega
  calc n * 10 ^ k * 10 ^ e.toNat * 10 ^ (-(e + k)).toNat
      = n * 10 ^ (k + e.toNat + (-(e + k)).toNat) := by ring
    _ = n * 10 ^ ((e + k).toNat + (-e).toNat) := by rw [hexp]
    _ = n * 10 ^ (e + k).toNat * 10 ^ (-e).toNat := by ring

end Binary64

end FieldGraph
