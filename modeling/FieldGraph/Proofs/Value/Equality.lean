import FieldGraph.Number.Decimal
import FieldGraph.Number.Numeral
import FieldGraph.Value.Basic

/-!
# Equality of values

Equality of values is an equivalence but for not-a-number, which differs from itself, and which no
digits and no sign stand for.
-/
namespace FieldGraph

namespace Binary64

theorem same_comm (x y : Binary64) : x.same y = y.same x := by
  cases x <;> cases y <;> simp [same, Bool.and_comm, Bool.beq_comm]

theorem same_trans {x y z : Binary64} (hxy : x.same y = true) (hyz : y.same z = true) :
    x.same z = true := by
  cases y with
  | finite y =>
    cases x with
    | finite x =>
      cases z with
      | finite z =>
        simp only [same, Bool.or_eq_true, Bool.and_eq_true, beq_iff_eq] at hxy hyz ⊢
        rcases hxy with rfl | ⟨hx, hy⟩
        · exact hyz
        · rcases hyz with rfl | ⟨_, hz⟩
          · exact .inr ⟨hx, hy⟩
          · exact .inr ⟨hx, hz⟩
      | _ => cases hyz
    | _ => cases hxy
  | infinite negative =>
    cases x with
    | infinite _ =>
      cases eq_of_beq hxy
      exact hyz
    | _ => cases hxy
  | nan => cases hyz

theorem same_self {x : Binary64} (h : x ≠ .nan) : x.same x = true := by
  cases x with
  | finite x => simp [same]
  | infinite negative => simp [same]
  | nan => exact absurd rfl h

theorem neg_ne_nan {x : Binary64} (h : x ≠ .nan) : x.neg ≠ .nan := by
  cases x with
  | finite x => exact nofun
  | infinite negative => exact nofun
  | nan => exact absurd rfl h

theorem ofParts_ne_nan (negative : Bool) (mantissa : Nat) (exponent : Int) :
    ofParts negative mantissa exponent ≠ .nan := by
  unfold ofParts
  split
  · exact nofun
  · exact nofun

theorem ofRatio_ne_nan (negative : Bool) (num den : Nat) : ofRatio negative num den ≠ .nan := by
  by_cases hzero : num = 0
  · rw [ofRatio, if_pos hzero]
    exact nofun
  · rw [ofRatio, if_neg hzero]
    dsimp only
    split
    · exact ofParts_ne_nan _ _ _
    · exact ofParts_ne_nan _ _ _

theorem ofDecimal_ne_nan (negative : Bool) (digits : Nat) (exponent : Int) :
    ofDecimal negative digits exponent ≠ .nan := by
  unfold ofDecimal
  split
  · exact nofun
  · split
    · exact nofun
    · split
      · exact nofun
      · exact ofRatio_ne_nan _ _ _

end Binary64

namespace Value

mutual

theorem same_comm : ∀ a b : Value, a.same b = b.same a
  | .null, b => by cases b <;> simp [same]
  | .bool x, b => by cases b <;> simp [same, Bool.beq_comm]
  | .int i, b => by cases b <;> simp [same, Bool.beq_comm]
  | .float x, b => by cases b <;> simp [same, Binary64.same_comm]
  | .string s, b => by cases b <;> simp [same, Bool.beq_comm]
  | .list as, .list bs => by simpa [same] using sameAll_comm as bs
  | .list as, .null | .list as, .bool _ | .list as, .int _ | .list as, .float _
  | .list as, .string _ => by simp [same]

theorem sameAll_comm : ∀ as bs : List Value, sameAll as bs = sameAll bs as
  | [], [] => rfl
  | [], _ :: _ => rfl
  | _ :: _, [] => rfl
  | a :: as, b :: bs => by rw [sameAll, sameAll, same_comm a b, sameAll_comm as bs]

end

mutual

theorem same_trans : ∀ (a : Value) {b c : Value}, a.same b = true → b.same c = true →
    a.same c = true
  | .null, b, c, hab, hbc => by
    cases b with
    | null => exact hbc
    | _ => cases hab
  | .bool _, b, c, hab, hbc => by
    cases b with
    | bool _ =>
      cases eq_of_beq hab
      exact hbc
    | _ => cases hab
  | .int _, b, c, hab, hbc => by
    cases b with
    | int _ =>
      cases eq_of_beq hab
      exact hbc
    | _ => cases hab
  | .float _, b, c, hab, hbc => by
    cases b with
    | float _ =>
      cases c with
      | float _ => exact Binary64.same_trans hab hbc
      | _ => cases hbc
    | _ => cases hab
  | .string _, b, c, hab, hbc => by
    cases b with
    | string _ =>
      cases eq_of_beq hab
      exact hbc
    | _ => cases hab
  | .list as, b, c, hab, hbc => by
    cases b with
    | list _ =>
      cases c with
      | list _ => exact sameAll_trans as hab hbc
      | _ => cases hbc
    | _ => cases hab

theorem sameAll_trans : ∀ (as : List Value) {bs cs : List Value}, sameAll as bs = true →
    sameAll bs cs = true → sameAll as cs = true
  | [], bs, cs, hab, hbc => by
    cases bs with
    | nil => exact hbc
    | cons b bs => cases hab
  | a :: as, bs, cs, hab, hbc => by
    cases bs with
    | nil => cases hab
    | cons b bs =>
      cases cs with
      | nil => cases hbc
      | cons c cs =>
        rw [sameAll, Bool.and_eq_true] at hab hbc ⊢
        exact ⟨same_trans a hab.1 hbc.1, sameAll_trans as hab.2 hbc.2⟩

end

/-- Not-a-number occurs in the value, in lists of any depth. -/
inductive HasNaN : Value → Prop
  | here : HasNaN (.float .nan)
  | item {items : List Value} {v : Value} (hmem : v ∈ items) (h : HasNaN v) : HasNaN (.list items)

theorem HasNaN.not_same {v : Value} (h : v.HasNaN) : v.same v = false := by
  induction h with
  | here => rfl
  | @item items v hmem _ ih =>
    rw [same, Bool.eq_false_iff]
    intro hall
    induction items with
    | nil => cases hmem
    | cons w items ihitems =>
      rw [sameAll, Bool.and_eq_true] at hall
      rcases List.mem_cons.mp hmem with rfl | hmem
      · rw [ih] at hall
        cases hall.1
      · exact ihitems hmem hall.2

theorem sameAll_self {items : List Value} (h : ∀ v ∈ items, v.same v = true) :
    sameAll items items = true := by
  induction items with
  | nil => rfl
  | cons v items ih =>
    obtain ⟨hv, hitems⟩ := List.forall_mem_cons.mp h
    rw [sameAll, hv, Bool.true_and]
    exact ih hitems

theorem same_self : ∀ {v : Value}, ¬v.HasNaN → v.same v = true
  | .null, _ => rfl
  | .bool _, _ => by simp [same]
  | .int _, _ => by simp [same]
  | .float x, h => by
    apply Binary64.same_self
    rintro rfl
    exact h .here
  | .string _, _ => by simp [same]
  | .list items, h => by
    apply sameAll_self
    intro v hv
    exact same_self fun hnan => h (.item hv hnan)

end Value

end FieldGraph
