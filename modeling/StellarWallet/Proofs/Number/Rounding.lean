import Mathlib.Algebra.Order.Field.Rat
import Mathlib.Data.Nat.Log
import Mathlib.Tactic.FieldSimp
import Mathlib.Tactic.Linarith
import Mathlib.Tactic.Positivity
import Mathlib.Tactic.Ring
import StellarWallet.Number.Basic

/-!
Exact values, and how they are rounded.

The value of a finite binary64 number is a rational number. In units of a decimal place it is
rounded once, to the nearest integer, a half to the even neighbour. The whole numbers of at most
2^53 are binary64 numbers as they are.
-/

namespace StellarWallet

/-- The integer nearest to a number, the even one where two are as near. -/
structure RoundsTo (x : ℚ) (k : ℤ) : Prop where
  near : |x - k| ≤ 1 / 2
  even : |x - k| = 1 / 2 → Even k

/-- A number with a sign. -/
def signed {α : Type} [Neg α] (negative : Bool) (x : α) : α := if negative then -x else x

lemma RoundsTo.signed {x : ℚ} {k : ℤ} (h : RoundsTo x k) (negative : Bool) :
    RoundsTo (signed negative x) (signed negative k) := by
  cases negative with
  | false => exact h
  | true =>
    have habs : |-x - ((-k : ℤ) : ℚ)| = |x - k| := by
      rw [Int.cast_neg, ← abs_neg]
      congr 1
      ring
    constructor
    · change |-x - ((-k : ℤ) : ℚ)| ≤ 1 / 2
      rw [habs]
      exact h.near
    · intro heq
      change |-x - ((-k : ℤ) : ℚ)| = 1 / 2 at heq
      rw [habs] at heq
      exact (h.even heq).neg

/-- A quotient with a remainder of at most half the divisor, which may be negative. -/
lemma roundsTo_div {n d : ℕ} {k e : ℤ} (hd : 0 < d) (he : (n : ℤ) = d * k + e)
    (hnear : 2 * e.natAbs ≤ d) (heven : 2 * e.natAbs = d → Even k) :
    RoundsTo ((n : ℚ) / d) k := by
  have hdq : (0 : ℚ) < d := by exact_mod_cast hd
  have hfar : |(n : ℚ) / d - k| = (e.natAbs : ℚ) / d := by
    have hn : (n : ℚ) = d * k + e := by exact_mod_cast he
    rw [hn, add_div, mul_div_cancel_left₀ _ hdq.ne', add_sub_cancel_left, abs_div,
      abs_of_pos hdq, Nat.cast_natAbs, Int.cast_abs]
  have hhalf : (1 : ℚ) / 2 = (d : ℚ) / 2 / d := by
    field_simp
  constructor
  · rw [hfar, hhalf]
    have hcast : 2 * (e.natAbs : ℚ) ≤ d := by exact_mod_cast hnear
    exact div_le_div_of_nonneg_right (by linarith) hdq.le
  · intro heq
    rw [hfar, hhalf, div_left_inj' hdq.ne'] at heq
    have hcast : 2 * (e.natAbs : ℚ) = d := by linarith
    exact heven (by exact_mod_cast hcast)

/-- A quotient is rounded to the nearest integer. -/
lemma roundsTo_roundQuotient (n : Nat) {d : Nat} (hd : 0 < d) :
    RoundsTo ((n : ℚ) / d) (roundQuotient n d) := by
  have hmod : n % d < d := Nat.mod_lt n hd
  have hdiv : (n : ℤ) = d * (n / d : ℕ) + (n % d : ℕ) := by
    exact_mod_cast (Nat.div_add_mod n d).symm
  have hup : (n : ℤ) = d * (n / d + 1 : ℕ) + ((n % d : ℕ) - d) := by
    rw [hdiv]
    push_cast
    ring
  unfold roundQuotient
  dsimp only
  split
  · exact roundsTo_div hd hdiv (by omega) (by omega)
  · split
    · exact roundsTo_div hd hup (by omega) (by omega)
    · -- The two neighbours are as near, and the even one is taken.
      rcases Nat.mod_two_eq_zero_or_one (n / d) with heven | hodd
      · rw [heven]
        exact roundsTo_div hd hdiv (by omega) fun _ => by
          exact_mod_cast Nat.even_iff.2 heven
      · rw [hodd]
        exact roundsTo_div hd hup (by omega) fun _ => by
          exact_mod_cast Nat.even_iff.2 (by omega)

namespace Binary64

lemma ratio_pos (m : Nat) (q : Int) : 0 < (ratio m q).2 := by
  unfold ratio scaleDown
  split
  · exact Nat.mul_pos Nat.one_pos (twoTo_pos _)
  · exact Nat.one_pos

/-- The value of `m · 2^q`. -/
lemma ratio_div (m : Nat) (q : Int) :
    ((ratio m q).1 : ℚ) / (ratio m q).2 = m * (2 : ℚ) ^ q := by
  unfold ratio scaleDown
  split
  · next h =>
    obtain ⟨j, rfl⟩ : ∃ j : ℕ, q = -j := ⟨(-q).toNat, by omega⟩
    have hj : (-(-(j : ℤ))).toNat = j := by omega
    simp only [hj, twoTo, Nat.pow_eq, one_mul, Nat.cast_pow, Nat.cast_ofNat, zpow_neg,
      zpow_natCast]
    rw [div_eq_mul_inv]
  · next h =>
    obtain ⟨j, rfl⟩ : ∃ j : ℕ, q = j := ⟨q.toNat, by omega⟩
    have hj : (-(-(j : ℤ))).toNat = j := by omega
    simp only [hj, twoTo, Nat.pow_eq, Nat.cast_mul, Nat.cast_pow, Nat.cast_ofNat, Nat.cast_one,
      div_one, zpow_natCast]

/-- The units of a decimal place that a number has, rounded. -/
lemma roundsTo_unitsAt (p m : Nat) (q : Int) :
    RoundsTo (m * (2 : ℚ) ^ q * 10 ^ p) (unitsAt p m q) := by
  have h := roundsTo_roundQuotient ((ratio m q).1 * tenTo p) (ratio_pos m q)
  have hvalue : (((ratio m q).1 * tenTo p : ℕ) : ℚ) / (ratio m q).2
      = m * (2 : ℚ) ^ q * 10 ^ p := by
    rw [← ratio_div, Nat.cast_mul, tenTo, Nat.pow_eq, Nat.cast_pow, Nat.cast_ofNat]
    ring
  rw [hvalue] at h
  exact h

/-! ### Whole numbers -/

variable {n : Nat}

lemma scaleDown_of_nonpos (n : Nat) {q : Int} (hq : q ≤ 0) :
    scaleDown n 1 q = (n * twoTo (-q).toNat, 1) := by
  unfold scaleDown
  split
  · next h =>
    obtain rfl : q = 0 := Int.le_antisymm hq h
    simp
  · rfl

lemma roundQuotient_one (n : Nat) : roundQuotient n 1 = n := by
  simp [roundQuotient, Nat.mod_one]

/-- A whole number with at most 53 bits, moved up to the top one. -/
lemma twoTo_mul_bounds (hn : n ≠ 0) (h : n.log2 ≤ 52) :
    twoTo 52 ≤ n * twoTo (52 - n.log2) ∧ n * twoTo (52 - n.log2) < twoTo 53 := by
  have hlow : 2 ^ n.log2 ≤ n := Nat.log2_self_le hn
  have hhigh : n < 2 ^ (n.log2 + 1) := Nat.lt_log2_self
  have hpos : 0 < twoTo (52 - n.log2) := twoTo_pos _
  constructor
  · calc twoTo 52 = 2 ^ n.log2 * twoTo (52 - n.log2) := by
          rw [twoTo, twoTo, Nat.pow_eq, Nat.pow_eq, ← Nat.pow_add, Nat.add_sub_cancel' h]
      _ ≤ n * twoTo (52 - n.log2) := Nat.mul_le_mul_right _ hlow
  · calc n * twoTo (52 - n.log2) < 2 ^ (n.log2 + 1) * twoTo (52 - n.log2) :=
          Nat.mul_lt_mul_of_pos_right hhigh hpos
      _ = twoTo 53 := by
          rw [twoTo, twoTo, Nat.pow_eq, Nat.pow_eq, ← Nat.pow_add]
          congr 1
          omega

lemma exponentOf_one (hn : n ≠ 0) (h : n.log2 ≤ 52) : exponentOf n 1 = (n.log2 : Int) - 52 := by
  have hone : Nat.log2 1 = 0 := by decide
  have hscale := scaleDown_of_nonpos n (q := (n.log2 : Int) - (Nat.log2 1 : ℕ) - 53) (by omega)
  have hshift : (-((n.log2 : Int) - (Nat.log2 1 : ℕ) - 53)).toNat = 52 - n.log2 + 1 := by omega
  have hlow := (twoTo_mul_bounds hn h).1
  have hdouble : n * twoTo (52 - n.log2 + 1) = 2 * (n * twoTo (52 - n.log2)) := by
    rw [twoTo, twoTo, Nat.pow_eq, Nat.pow_eq, pow_succ]
    ring
  have hlarge : ¬ n * twoTo (52 - n.log2 + 1) < twoTo 53 * 1 := by
    have htwo : twoTo 53 = 2 * twoTo 52 := by decide
    omega
  rw [exponentOf, hscale, hshift]
  dsimp only
  rw [if_neg hlarge]
  omega

/-- A whole number of at most 2^53 is a binary64 number. -/
lemma exists_ofRatio_one (negative : Bool) (h : n ≤ twoTo 53) : ∃ m q hc,
    ofRatio negative n 1 = .finite negative m q hc ∧ (n : ℚ) = m * (2 : ℚ) ^ q := by
  rcases Nat.eq_zero_or_pos n with rfl | hpos
  · exact ⟨0, -1074, isCanonical_zero, rfl, by simp⟩
  rcases Nat.lt_or_eq_of_le h with hlt | rfl
  · have hn : n ≠ 0 := hpos.ne'
    have hlog : n.log2 ≤ 52 := Nat.lt_succ_iff.1 ((Nat.log2_lt hn).2 hlt)
    obtain ⟨hlow, hhigh⟩ := twoTo_mul_bounds hn hlog
    have hcanonical : IsCanonical (n * twoTo (52 - n.log2)) ((n.log2 : Int) - 52) :=
      ⟨hhigh, by omega, by omega, Or.inl hlow⟩
    have hshift : (-((n.log2 : Int) - 52)).toNat = 52 - n.log2 := by omega
    refine ⟨_, _, hcanonical, ?_, ?_⟩
    · have hscale := scaleDown_of_nonpos n (q := (n.log2 : Int) - 52) (by omega)
      rw [hshift] at hscale
      rw [ofRatio, if_neg hn, exponentOf_one hn hlog]
      dsimp only
      rw [hscale, roundQuotient_one, pack, dif_pos hcanonical]
    · have hexponent : (n.log2 : Int) - 52 = -((52 - n.log2 : ℕ) : Int) := by omega
      rw [hexponent, zpow_neg, zpow_natCast, Nat.cast_mul, twoTo, Nat.pow_eq, Nat.cast_pow,
        Nat.cast_ofNat, mul_assoc, mul_inv_cancel₀ (by positivity), mul_one]
  · refine ⟨twoTo 52, 1, by decide, ?_, ?_⟩
    · cases negative <;> decide +kernel
    · norm_num [twoTo]

end Binary64

namespace Number

/-- A number stands for an exact amount: a finite one, or a whole one of at most 2^53. -/
inductive Denotes : Number → ℚ → Prop where
  | real (negative : Bool) (m : Nat) (q : Int) (h : Binary64.IsCanonical m q) :
    Denotes (.real (.finite negative m q h)) (signed negative (m * (2 : ℚ) ^ q))
  | whole (n : Int) (h : n.natAbs ≤ twoTo 53) : Denotes (.whole n) n

/-- As a binary64 number it stands for the same. -/
lemma Denotes.exists_toBinary64 {a : Number} {x : ℚ} (h : a.Denotes x) : ∃ negative m q hc,
    a.toBinary64 = .ok (.finite negative m q hc) ∧ x = signed negative (m * (2 : ℚ) ^ q) := by
  cases h with
  | real negative m q hc => exact ⟨negative, m, q, hc, rfl, rfl⟩
  | whole n hn =>
    obtain ⟨m, q, hc, hratio, hvalue⟩ := Binary64.exists_ofRatio_one (decide (n < 0)) hn
    refine ⟨decide (n < 0), m, q, hc, ?_, ?_⟩
    · rw [toBinary64, Binary64.ofInt, hratio]
      rfl
    · rw [← hvalue, signed, Nat.cast_natAbs, Int.cast_abs]
      by_cases hneg : n < 0
      · have hcast : (n : ℚ) < 0 := by exact_mod_cast hneg
        rw [if_pos (decide_eq_true hneg), abs_of_neg hcast, neg_neg]
      · have hcast : (0 : ℚ) ≤ n := by exact_mod_cast Int.not_lt.1 hneg
        rw [if_neg (by simpa using hneg), abs_of_nonneg hcast]

end Number

end StellarWallet
