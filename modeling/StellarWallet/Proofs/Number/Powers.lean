import Mathlib.Algebra.Order.Ring.Pow
import StellarWallet.Proofs.Number.Range

/-!
Powers of binary64 numbers.

A power is computed by squaring on mantissas that are cut to the working bits. Each cut loses less
than one part in 2^200, so that the mantissa that is rounded in the end lies below the exact power,
and not far below. A power below the bound of the finite numbers is finite, and one that exceeds the
bound by a third is not. An exponent is rounded to binary64 first, which matters as little.
-/

namespace StellarWallet

namespace Binary64

/-! ### Cutting a mantissa -/

/-- The value of a mantissa with its exponent. -/
def scaled (x : Nat × Int) : ℚ := x.1 * (2 : ℚ) ^ x.2

/-- The exponent of the power of two that is next below. -/
def magnitude (x : Nat × Int) : Int := x.1.log2 + x.2

/-- What at least is left of a value when it is cut once. -/
def kept : ℚ := 1 - 1 / 2 ^ 200

lemma kept_pos : 0 < kept := by norm_num [kept]

lemma kept_le_one : kept ≤ 1 := by norm_num [kept]

lemma scaled_nonneg (x : Nat × Int) : 0 ≤ scaled x :=
  mul_nonneg (Nat.cast_nonneg _) (zpow_pos two_pos _).le

/-- The exponent of the mantissa tells the value up to a factor of two. -/
lemma scaled_bounds {x : Nat × Int} (h : x.1 ≠ 0) :
    (2 : ℚ) ^ magnitude x ≤ scaled x ∧ scaled x < (2 : ℚ) ^ (magnitude x + 1) := by
  have hpos : (0 : ℚ) < (2 : ℚ) ^ x.2 := zpow_pos two_pos _
  rw [magnitude, scaled, add_right_comm, zpow_add₀ two_ne_zero, zpow_add₀ two_ne_zero]
  exact ⟨mul_le_mul_of_nonneg_right (zpow_log2_le h) hpos.le,
    mul_lt_mul_of_pos_right (lt_zpow_log2 _) hpos⟩

variable {m : Nat} {q : Int}

lemma cutMantissa_eq (m : Nat) (q : Int) : ∃ k : Nat,
    cutMantissa m q = (m / 2 ^ k, q + k) ∧ (k = 0 ∨ m.log2 = 319 + k) := by
  refine ⟨m.log2 + 1 - workingBits, ?_, ?_⟩
  · rw [cutMantissa, Nat.shiftRight_eq_div_pow]
  · rw [workingBits]
    omega

lemma scaled_cut (m k : Nat) (q : Int) :
    scaled (m / 2 ^ k, q + k) = ((m / 2 ^ k * 2 ^ k : ℕ) : ℚ) * (2 : ℚ) ^ q := by
  rw [scaled, zpow_add₀ two_ne_zero, zpow_natCast]
  push_cast
  ring

lemma scaled_cutMantissa_le (m : Nat) (q : Int) : scaled (cutMantissa m q) ≤ scaled (m, q) := by
  obtain ⟨k, hcut, -⟩ := cutMantissa_eq m q
  rw [hcut, scaled_cut, scaled]
  refine mul_le_mul_of_nonneg_right ?_ (zpow_pos two_pos _).le
  exact_mod_cast Nat.div_mul_le_self m (2 ^ k)

/-- A cut takes less than one part in 2^200. -/
lemma kept_mul_le (m : Nat) (q : Int) : kept * scaled (m, q) ≤ scaled (cutMantissa m q) := by
  obtain ⟨k, hcut, hk⟩ := cutMantissa_eq m q
  rw [hcut, scaled_cut, scaled, ← mul_assoc]
  refine mul_le_mul_of_nonneg_right ?_ (zpow_pos two_pos _).le
  rcases hk with rfl | hk
  · rw [pow_zero, Nat.div_one, mul_one]
    exact mul_le_of_le_one_left (Nat.cast_nonneg m) kept_le_one
  · have hm : m ≠ 0 := by
      rintro rfl
      rw [Nat.log2_zero] at hk
      omega
    have hlow : 2 ^ 200 * 2 ^ k ≤ m := by
      rw [← pow_add]
      exact (Nat.pow_le_pow_right two_pos (by omega)).trans (Nat.log2_self_le hm)
    have hrest : m < m / 2 ^ k * 2 ^ k + 2 ^ k := Nat.lt_div_mul_add (Nat.two_pow_pos k)
    have hlowq : (2 : ℚ) ^ 200 * 2 ^ k ≤ m := by exact_mod_cast hlow
    have hrestq : (m : ℚ) < ((m / 2 ^ k * 2 ^ k : ℕ) : ℚ) + 2 ^ k := by exact_mod_cast hrest
    have hpart : (2 : ℚ) ^ k ≤ 1 / 2 ^ 200 * m := by
      rw [one_div, inv_mul_eq_div, le_div_iff₀ (by positivity), mul_comm]
      exact hlowq
    rw [kept, sub_mul, one_mul]
    linarith

lemma magnitude_cutMantissa (hm : m ≠ 0) :
    (cutMantissa m q).1 ≠ 0 ∧ magnitude (cutMantissa m q) = magnitude (m, q) := by
  obtain ⟨k, hcut, hk⟩ := cutMantissa_eq m q
  have hk' : k ≤ m.log2 := by omega
  have hle : 2 ^ k ≤ m := (Nat.pow_le_pow_right (by decide) hk').trans (Nat.log2_self_le hm)
  have hne : m / 2 ^ k ≠ 0 := (Nat.div_pos hle (Nat.two_pow_pos k)).ne'
  have hlog : (m / 2 ^ k).log2 = m.log2 - k := by
    rw [Nat.log2_eq_iff hne]
    have hlow := Nat.log2_self_le hm
    have hhigh : m < 2 ^ (m.log2 + 1) := Nat.lt_log2_self
    constructor
    · rw [Nat.le_div_iff_mul_le (Nat.two_pow_pos k), ← pow_add, Nat.sub_add_cancel hk']
      exact hlow
    · rw [Nat.div_lt_iff_lt_mul (Nat.two_pow_pos k), ← pow_add]
      rw [show m.log2 - k + 1 + k = m.log2 + 1 by omega]
      exact hhigh
  rw [hcut]
  refine ⟨hne, ?_⟩
  simp only [magnitude, hlog]
  omega

lemma one_le_scaled_iff {x : Nat × Int} (h : x.1 ≠ 0) : 1 ≤ scaled x ↔ 0 ≤ magnitude x := by
  obtain ⟨hlow, hhigh⟩ := scaled_bounds h
  constructor
  · intro hone
    have hpow : (2 : ℚ) ^ (0 : ℤ) < (2 : ℚ) ^ (magnitude x + 1) := by
      rw [zpow_zero]
      exact hone.trans_lt hhigh
    have hlt := (zpow_lt_zpow_iff_right₀ one_lt_two).1 hpow
    omega
  · exact fun hmagnitude => (one_le_zpow₀ one_le_two hmagnitude).trans hlow

lemma ne_zero_of_one_le (h : 1 ≤ scaled (m, q)) : m ≠ 0 := by
  rintro rfl
  norm_num [scaled] at h

/-! ### The squarings -/

/-- A mantissa with its exponent stands for a value that is one or more, cut `n` times. -/
structure IsCut (n : Nat) (x : Nat × Int) (X : ℚ) : Prop where
  ne_zero : x.1 ≠ 0
  one_le : 1 ≤ scaled x
  le : scaled x ≤ X
  ge : kept ^ n * X ≤ scaled x

namespace IsCut

variable {i j : Nat} {x y : Nat × Int} {X Y : ℚ}

lemma refl (hne : x.1 ≠ 0) (hone : 1 ≤ scaled x) : IsCut 0 x (scaled x) where
  ne_zero := hne
  one_le := hone
  le := le_rfl
  ge := by rw [pow_zero, one_mul]

lemma nonneg (h : IsCut i x X) : 0 ≤ X := zero_le_one.trans (h.one_le.trans h.le)

lemma mono (h : IsCut i x X) (hij : i ≤ j) : IsCut j x X :=
  { h with
    ge := (mul_le_mul_of_nonneg_right (pow_le_pow_of_le_one kept_pos.le kept_le_one hij)
      h.nonneg).trans h.ge }

lemma scaled_mul (x y : Nat × Int) : scaled (x.1 * y.1, x.2 + y.2) = scaled x * scaled y := by
  rw [scaled, scaled, scaled, zpow_add₀ two_ne_zero, Nat.cast_mul]
  ring

lemma mul (hx : IsCut i x X) (hy : IsCut j y Y) :
    IsCut (i + j) (x.1 * y.1, x.2 + y.2) (X * Y) where
  ne_zero := Nat.mul_ne_zero hx.ne_zero hy.ne_zero
  one_le := by
    rw [scaled_mul]
    exact one_le_mul_of_one_le_of_one_le hx.one_le hy.one_le
  le := by
    rw [scaled_mul]
    exact mul_le_mul hx.le hy.le (scaled_nonneg y) hx.nonneg
  ge := by
    rw [scaled_mul, pow_add, mul_mul_mul_comm]
    exact mul_le_mul hx.ge hy.ge (mul_nonneg (pow_nonneg kept_pos.le j) hy.nonneg)
      (scaled_nonneg x)

lemma cut (h : IsCut i x X) : IsCut (i + 1) (cutMantissa x.1 x.2) X := by
  obtain ⟨hne, hmagnitude⟩ := magnitude_cutMantissa (q := x.2) h.ne_zero
  refine ⟨hne, ?_, (scaled_cutMantissa_le x.1 x.2).trans h.le, ?_⟩
  · rw [one_le_scaled_iff hne, hmagnitude, ← one_le_scaled_iff h.ne_zero]
    exact h.one_le
  · calc kept ^ (i + 1) * X = kept * (kept ^ i * X) := by ring
      _ ≤ kept * scaled x := mul_le_mul_of_nonneg_left h.ge kept_pos.le
      _ ≤ scaled (cutMantissa x.1 x.2) := kept_mul_le x.1 x.2

end IsCut

/-- A power made from that of half the exponent. -/
def nextPower (m : Nat) (q : Int) (e : Nat) (x : Nat × Int) : Nat × Int :=
  let square := cutMantissa (x.1 * x.1) (2 * x.2)
  if e % 2 = 0 then square else cutMantissa (square.1 * m) (square.2 + q)

lemma powScaled_of_ne_zero (m : Nat) (q : Int) {e : Nat} (he : e ≠ 0) :
    powScaled m q e = (powScaled m q (e / 2)).bind fun x =>
      if (magnitude (nextPower m q e x)).natAbs ≤ 4200 then some (nextPower m q e x) else none := by
  rw [powScaled, if_neg he]
  rfl

section

variable {e : Nat} {x : Nat × Int}

lemma isCut_nextPower {n : Nat} (hone : 1 ≤ scaled (m, q))
    (h : IsCut n x (scaled (m, q) ^ (e / 2))) :
    IsCut (2 * n + 2) (nextPower m q e x) (scaled (m, q) ^ e) := by
  have hsquare : IsCut (2 * n + 1) (cutMantissa (x.1 * x.1) (2 * x.2))
      (scaled (m, q) ^ (2 * (e / 2))) := by
    rw [two_mul, two_mul, two_mul, pow_add]
    exact (h.mul h).cut
  rw [nextPower]
  split
  · next heven =>
    rw [show 2 * (e / 2) = e by omega] at hsquare
    exact hsquare.mono (Nat.le_succ _)
  · next hodd =>
    have hnext := (hsquare.mul (IsCut.refl (x := (m, q)) (ne_zero_of_one_le hone) hone)).cut
    rw [← pow_succ, show 2 * (e / 2) + 1 = e by omega] at hnext
    exact hnext

/-- The mantissa that is rounded stands for the power, from below. -/
lemma isCut_of_powScaled (hone : 1 ≤ scaled (m, q)) (h : powScaled m q e = some x) :
    IsCut (4 * e - 2) x (scaled (m, q) ^ e) := by
  -- On the exponent, which each squaring halves.
  induction e using Nat.strongRecOn generalizing x with
  | ind e ih =>
    by_cases he : e = 0
    · subst he
      rw [powScaled, if_pos rfl] at h
      cases h
      have hscaled : scaled (1, 0) = 1 := by norm_num [scaled]
      have hrefl := IsCut.refl (x := (1, 0)) one_ne_zero hscaled.ge
      rw [hscaled] at hrefl
      rw [pow_zero]
      exact hrefl
    · rw [powScaled_of_ne_zero m q he, Option.bind_eq_some_iff] at h
      obtain ⟨y, hy, hguard⟩ := h
      split at hguard
      · cases hguard
        have hnext := isCut_nextPower hone (ih (e / 2) (by omega) hy)
        exact hnext.mono (show 2 * (4 * (e / 2) - 2) + 2 ≤ 4 * e - 2 by omega)
      · cases hguard

lemma magnitude_le_of_powScaled (he : e ≠ 0) (h : powScaled m q e = some x) :
    magnitude x ≤ 4200 := by
  rw [powScaled_of_ne_zero m q he, Option.bind_eq_some_iff] at h
  obtain ⟨y, -, hguard⟩ := h
  split at hguard
  · next hle =>
    cases hguard
    omega
  · cases hguard

/-- A power that is not too large is found. -/
lemma exists_powScaled (hone : 1 ≤ scaled (m, q))
    (hlt : scaled (m, q) ^ e < bound) : ∃ x, powScaled m q e = some x := by
  induction e using Nat.strongRecOn with
  | ind e ih =>
    by_cases he : e = 0
    · exact ⟨(1, 0), by rw [he, powScaled, if_pos rfl]⟩
    · have hhalf : scaled (m, q) ^ (e / 2) ≤ scaled (m, q) ^ e :=
        pow_le_pow_right₀ hone (Nat.div_le_self e 2)
      obtain ⟨y, hy⟩ := ih (e / 2) (by omega) (hhalf.trans_lt hlt)
      have hcut := isCut_nextPower (e := e) hone (isCut_of_powScaled hone hy)
      have hlow := (one_le_scaled_iff hcut.ne_zero).1 hcut.one_le
      have hhigh : (2 : ℚ) ^ magnitude (nextPower m q e y) < (2 : ℚ) ^ (1024 : ℤ) :=
        ((scaled_bounds hcut.ne_zero).1.trans hcut.le).trans_lt (hlt.trans bound_lt)
      have hmagnitude := (zpow_lt_zpow_iff_right₀ one_lt_two).1 hhigh
      refine ⟨nextPower m q e y, ?_⟩
      rw [powScaled_of_ne_zero m q he, hy, Option.bind_some, if_pos (by omega)]

/-- With few cuts little is lost. -/
lemma le_kept_pow {n : Nat} (h : n ≤ 2 ^ 73) : 3 / 4 ≤ kept ^ n := by
  have hn : (n : ℚ) ≤ 2 ^ 73 := by exact_mod_cast h
  have hlost : (n : ℚ) * (1 / 2 ^ 200) ≤ 2 ^ 73 * (1 / 2 ^ 200) :=
    mul_le_mul_of_nonneg_right hn (by norm_num)
  calc (3 : ℚ) / 4 ≤ 1 - 2 ^ 73 * (1 / 2 ^ 200) := by norm_num
    _ ≤ 1 + (n : ℚ) * -(1 / 2 ^ 200) := by linarith
    _ ≤ (1 + -(1 / 2 ^ 200)) ^ n := one_add_mul_le_pow (by norm_num) n
    _ = kept ^ n := by rw [kept, sub_eq_add_neg]

lemma two_pow_le_of_grows {X : ℚ} (hX : 1 + 1 / 2 ^ 52 ≤ X) (h : 2 ^ 70 ≤ e) :
    (2 : ℚ) ^ (4202 : ℤ) ≤ X ^ e := by
  have hone : 1 ≤ X := le_trans (by norm_num) hX
  have hdouble : 2 ≤ X ^ 2 ^ 52 := by
    calc (2 : ℚ) = 1 + ((2 ^ 52 : ℕ) : ℚ) * (1 / 2 ^ 52) := by norm_num
      _ ≤ (1 + 1 / 2 ^ 52) ^ 2 ^ 52 := one_add_mul_le_pow (by norm_num) _
      _ ≤ X ^ 2 ^ 52 := pow_le_pow_left₀ (by norm_num) hX _
  calc (2 : ℚ) ^ (4202 : ℤ) = (2 : ℚ) ^ 4202 := zpow_natCast 2 4202
    _ ≤ 2 ^ 2 ^ 18 := pow_le_pow_right₀ one_le_two (by norm_num)
    _ ≤ (X ^ 2 ^ 52) ^ 2 ^ 18 := pow_le_pow_left₀ zero_le_two hdouble _
    _ = X ^ 2 ^ 70 := by rw [← pow_mul, ← pow_add]
    _ ≤ X ^ e := pow_le_pow_right₀ hone h

/-- No power is found of an exponent that is too large, unless the number is one. -/
lemma powScaled_eq_none (hX : 1 + 1 / 2 ^ 52 ≤ scaled (m, q)) (h : 2 ^ 70 ≤ e) :
    powScaled m q e = none := by
  have hone : 1 ≤ scaled (m, q) := le_trans (by norm_num) hX
  induction e using Nat.strongRecOn with
  | ind e ih =>
    by_cases hlarge : 2 ^ 71 ≤ e
    · rw [powScaled_of_ne_zero m q (by omega), ih (e / 2) (by omega) (by omega), Option.bind_none]
    · rw [Option.eq_none_iff_forall_ne_some]
      intro x hx
      have hcut := isCut_of_powScaled hone hx
      have hmagnitude := magnitude_le_of_powScaled (by omega) hx
      have hkept : 3 / 4 ≤ kept ^ (4 * e - 2) := le_kept_pow (by omega)
      have hlow : 3 / 4 * (2 : ℚ) ^ (4202 : ℤ) ≤ scaled x :=
        (mul_le_mul hkept (two_pow_le_of_grows hX h) (zpow_pos two_pos _).le
          (pow_pos kept_pos _).le).trans hcut.ge
      have hhigh : scaled x < (2 : ℚ) ^ (4201 : ℤ) :=
        (scaled_bounds hcut.ne_zero).2.trans_le (zpow_le_zpow_right₀ one_le_two (by omega))
      have hpos : (0 : ℚ) < (2 : ℚ) ^ (4201 : ℤ) := zpow_pos two_pos _
      have hdouble : (2 : ℚ) ^ (4202 : ℤ) = 2 * (2 : ℚ) ^ (4201 : ℤ) :=
        zpow_one_add₀ two_ne_zero 4201
      rw [hdouble] at hlow
      generalize (2 : ℚ) ^ (4201 : ℤ) = P at hlow hhigh hpos
      linarith

end

/-! ### Powers of what is one or more -/

lemma scaled_of_ratio_one (h : ratio m q = (twoTo 52, twoTo 52)) : scaled (m, q) = 1 := by
  have hpos : ((twoTo 52 : ℕ) : ℚ) ≠ 0 := by exact_mod_cast (twoTo_pos 52).ne'
  rw [scaled, ← ratio_div, h, div_self hpos]

/-- The number one has one form, and the next larger number exceeds it by a 52nd binary digit. -/
lemma eq_one_or_grows (hc : IsCanonical m q) (hone : 1 ≤ scaled (m, q)) :
    ratio m q = (twoTo 52, twoTo 52) ∨ 1 + 1 / 2 ^ 52 ≤ scaled (m, q) := by
  have hm := ne_zero_of_one_le hone
  have hlog : m.log2 ≤ 52 := by
    have hlt : m.log2 < 53 := (Nat.log2_lt hm).2 hc.1
    omega
  have hmagnitude : 0 ≤ magnitude (m, q) := (one_le_scaled_iff hm).1 hone
  rw [magnitude] at hmagnitude
  obtain ⟨j, hj⟩ := Int.eq_ofNat_of_zero_le (show 0 ≤ q + 52 by dsimp only at hmagnitude; omega)
  have hunits : scaled (m, q) * 2 ^ 52 = (m * 2 ^ j : ℕ) := by
    rw [scaled, mul_assoc, ← zpow_natCast, ← zpow_add₀ two_ne_zero, Nat.cast_mul, Nat.cast_pow,
      Nat.cast_ofNat, ← zpow_natCast]
    congr 2
  have hleast : 2 ^ 52 ≤ m * 2 ^ j := by
    have hcast : (2 ^ 52 : ℚ) ≤ (m * 2 ^ j : ℕ) := by
      rw [← hunits]
      norm_num
      linarith
    exact_mod_cast hcast
  rcases hleast.eq_or_lt with heq | hlt
  · left
    have hcanonical : twoTo 52 ≤ m := hc.2.2.2.resolve_right (by dsimp only at hmagnitude; omega)
    have h52 : twoTo 52 = 2 ^ 52 := rfl
    rcases Nat.eq_zero_or_pos j with rfl | hpos
    · obtain rfl : q = -52 := by omega
      rw [pow_zero, mul_one] at heq
      rw [← heq]
      rfl
    · have hdouble : m * 2 ≤ m * 2 ^ j := Nat.mul_le_mul_left m (Nat.le_pow hpos)
      omega
  · right
    have hcast : (2 ^ 52 : ℚ) + 1 ≤ (m * 2 ^ j : ℕ) := by exact_mod_cast hlt
    rw [← hunits] at hcast
    norm_num at hcast ⊢
    linarith

lemma negateIf_false (x : Binary64) : x.negateIf false = x := by
  cases x <;> simp [negateIf]

lemma powPositive_natCast (hone : 1 ≤ scaled (m, q)) (e : Nat) :
    powPositive m q (e + 1 : Nat) = match powScaled m q (e + 1) with
      | none => .infinite false
      | some x => ofScaled false x.1 x.2 := by
  have hpos : (0 : ℚ) < (ratio m q).2 := by exact_mod_cast ratio_pos m q
  have hatLeast : atLeastOne m q = true := by
    rw [scaled, ← ratio_div, one_le_div hpos, Nat.cast_le] at hone
    exact decide_eq_true hone
  rw [powPositive, Int.natAbs_natCast, hatLeast, decide_eq_true (by omega)]
  cases powScaled m q (e + 1) with
  | none => rfl
  | some x => exact if_pos (Int.natCast_nonneg _)

/-- A power is found unless it is too large; what is found is rounded. -/
lemma powPositive_spec (hX : 1 + 1 / 2 ^ 52 ≤ scaled (m, q)) (e : Nat) :
    (Number.real (powPositive m q (e + 1 : Nat))).IsGrown ∧
      (scaled (m, q) ^ (e + 1) < bound → (powPositive m q (e + 1 : Nat)).isFinite = true) ∧
      ((powPositive m q (e + 1 : Nat)).isFinite = true →
        3 * scaled (m, q) ^ (e + 1) < 4 * bound) := by
  have hone : 1 ≤ scaled (m, q) := le_trans (by norm_num) hX
  rw [powPositive_natCast hone]
  cases hpower : powScaled m q (e + 1) with
  | none =>
    refine ⟨Or.inr rfl, fun hlt => ?_, fun hfinite => absurd hfinite Bool.false_ne_true⟩
    obtain ⟨x, hx⟩ := exists_powScaled hone hlt
    cases hpower.symm.trans hx
  | some x =>
    have hcut := isCut_of_powScaled hone hpower
    dsimp only
    rw [isFinite_ofScaled_iff]
    refine ⟨isGrown_ofScaled (Or.inl rfl) x.2, hcut.le.trans_lt, fun hlt => ?_⟩
    have hsmall : e + 1 < 2 ^ 70 := by
      by_contra hlarge
      cases hpower.symm.trans (powScaled_eq_none hX (not_lt.1 hlarge))
    have hkept : 3 / 4 ≤ kept ^ (4 * (e + 1) - 2) := le_kept_pow (by omega)
    have hpart : 3 / 4 * scaled (m, q) ^ (e + 1) < bound :=
      ((mul_le_mul_of_nonneg_right hkept hcut.nonneg).trans hcut.ge).trans_lt hlt
    linarith

/-- The mantissa of a number that is one or more. -/
lemma exists_of_one_le {x : Binary64} (h : 1 ≤ x.toRat) :
    ∃ m q hc, x = .finite false m q hc ∧ x.toRat = scaled (m, q) := by
  cases x with
  | nan => exact absurd h (by norm_num [toRat])
  | infinite s => exact absurd h (by norm_num [toRat])
  | finite negative m q hc =>
    cases negative with
    | false => exact ⟨m, q, hc, rfl, rfl⟩
    | true =>
      have hnonneg : (0 : ℚ) ≤ m * (2 : ℚ) ^ q := scaled_nonneg (m, q)
      have hneg : (1 : ℚ) ≤ -(m * (2 : ℚ) ^ q) := h
      linarith

/-- **Natural powers of what is one or more.** They are found unless they are too large. -/
lemma pow_natCast {x : Binary64} (h : 1 ≤ x.toRat) (e : Nat) :
    (x.pow e = .error .tooLarge ∧ bound ≤ x.toRat ^ e) ∨
      ∃ y, x.pow e = .ok y ∧ y.isFinite = true ∧ 0 ≤ y.toRat ∧ 3 * x.toRat ^ e < 4 * bound := by
  have hbound := one_lt_bound
  have hone : (ofInt 1).isFinite = true ∧ 0 ≤ (ofInt 1).toRat := by
    have hfinite : (ofInt 1).isFinite = true := by decide +kernel
    exact ⟨hfinite, (isGrown_ofRatio 1 Nat.one_pos).nonneg hfinite⟩
  cases e with
  | zero =>
    refine Or.inr ⟨ofInt 1, rfl, hone.1, hone.2, ?_⟩
    rw [pow_zero]
    linarith
  | succ e =>
    obtain ⟨m, q, hc, rfl, hvalue⟩ := exists_of_one_le h
    rw [hvalue] at h ⊢
    have hm := ne_zero_of_one_le h
    have hpow : pow (.finite false m q hc) (e + 1 : Nat)
        = if ratio m q = (twoTo 52, twoTo 52) then .ok (ofInt 1)
          else if (powPositive m q (e + 1 : Nat)).isFinite
            then .ok (powPositive m q (e + 1 : Nat)) else .error .tooLarge := by
      rw [pow, if_neg (by omega)]
      simp only [hm, if_false, Bool.false_and, negateIf_false]
    rw [hpow]
    split
    · next hratio =>
      refine Or.inr ⟨ofInt 1, rfl, hone.1, hone.2, ?_⟩
      rw [scaled_of_ratio_one hratio, one_pow]
      linarith
    · next hratio =>
      have hX := (eq_one_or_grows hc h).resolve_left hratio
      obtain ⟨hgrown, hfound, hlimit⟩ := powPositive_spec hX e
      split
      · next hfinite =>
        exact Or.inr ⟨_, rfl, hfinite, hgrown.nonneg hfinite, hlimit hfinite⟩
      · next hinfinite =>
        exact Or.inl ⟨rfl, not_lt.1 fun hlt => hinfinite (hfound hlt)⟩

end Binary64

namespace Number

open Binary64 (bound bound_lt pow_natCast)

variable {X : ℚ} {n e d : Nat}

/-- What is added to an exponent when it is rounded matters little to a power in range. -/
lemma pow_lt_of_small (hX : 1 ≤ X) (hd : d * 2 ^ 53 ≤ n + d) (hlt : X ^ n < 2 * bound) :
    X ^ d < 3 / 2 := by
  have hn : d * 2 ^ 52 ≤ n := by
    have hhalf : d ≤ d * 2 ^ 52 := Nat.le_mul_of_pos_right d (Nat.two_pow_pos 52)
    rw [pow_succ, ← mul_assoc] at hd
    generalize d * 2 ^ 52 = k at hd hhalf ⊢
    omega
  by_contra hge
  rw [not_lt] at hge
  have hlarge : 2 * (2 : ℚ) ^ (1024 : ℤ) ≤ X ^ n := by
    calc 2 * (2 : ℚ) ^ (1024 : ℤ) = 2 ^ 1025 := by
          rw [← zpow_one_add₀ two_ne_zero, ← zpow_natCast]
          rfl
      _ ≤ 2 ^ 2 ^ 51 := pow_le_pow_right₀ one_le_two (by norm_num)
      _ ≤ ((3 / 2) ^ 2) ^ 2 ^ 51 := pow_le_pow_left₀ zero_le_two (by norm_num) _
      _ = (3 / 2) ^ 2 ^ 52 := by rw [← pow_mul, ← pow_succ']
      _ ≤ (X ^ d) ^ 2 ^ 52 := pow_le_pow_left₀ (by norm_num) hge _
      _ = X ^ (d * 2 ^ 52) := (pow_mul X d _).symm
      _ ≤ X ^ n := pow_le_pow_right₀ hX hn
  have hbound : 2 * (bound : ℚ) < 2 * (2 : ℚ) ^ (1024 : ℤ) :=
    mul_lt_mul_of_pos_left bound_lt two_pos
  exact absurd (hlt.trans hbound) (not_lt.2 hlarge)

lemma pow_add_le (hX : 1 ≤ X) (hd : d * 2 ^ 53 ≤ n + d) (hlt : X ^ n < 2 * bound) :
    X ^ (n + d) ≤ X ^ n * (3 / 2) := by
  rw [pow_add]
  exact mul_le_mul_of_nonneg_left (pow_lt_of_small hX hd hlt).le
    (pow_pos (zero_lt_one.trans_le hX) n).le

/-- Within a factor of two of the bound a rounded exponent does as well as the exact one. -/
lemma pow_rounded (hX : 1 ≤ X) (he : |(e : ℚ) - n| ≤ n / 2 ^ 53) :
    (2 * X ^ n < bound → X ^ e < bound) ∧ (2 * bound ≤ X ^ n → 4 * bound ≤ 3 * X ^ e) := by
  have hpow : ∀ k, 0 < X ^ k := fun k => pow_pos (zero_lt_one.trans_le hX) k
  have hbound : (0 : ℚ) ≤ bound := Nat.cast_nonneg bound
  rw [abs_le, le_div_iff₀ (by norm_num), ← neg_div, div_le_iff₀ (by norm_num)] at he
  rcases le_total e n with hle | hle
  · obtain ⟨d, rfl⟩ := Nat.exists_eq_add_of_le hle
    have hd : d * 2 ^ 53 ≤ e + d := by
      have hcast : ((d * 2 ^ 53 : ℕ) : ℚ) ≤ (e + d : ℕ) := by
        push_cast at he ⊢
        linarith [he.1]
      exact_mod_cast hcast
    refine ⟨fun hlt => ?_, fun hge => ?_⟩
    · have hmono : X ^ e ≤ X ^ (e + d) := pow_le_pow_right₀ hX hle
      linarith [hpow (e + d)]
    · by_contra hlt
      have hprod : X ^ (e + d) ≤ X ^ e * (3 / 2) := pow_add_le hX hd (by linarith)
      linarith
  · obtain ⟨d, rfl⟩ := Nat.exists_eq_add_of_le hle
    have hd : d * 2 ^ 53 ≤ n := by
      have hcast : ((d * 2 ^ 53 : ℕ) : ℚ) ≤ n := by
        push_cast at he ⊢
        linarith [he.2]
      exact_mod_cast hcast
    refine ⟨fun hlt => ?_, fun hge => ?_⟩
    · have hprod : X ^ (n + d) ≤ X ^ n * (3 / 2) :=
        pow_add_le hX (hd.trans (Nat.le_add_right n d)) (by linarith [hpow n])
      linarith [hpow n]
    · have hmono : X ^ n ≤ X ^ (n + d) := pow_le_pow_right₀ hX hle
      linarith

/-- A natural power of a binary64 number. It has no value only if the exponent or the power is too
large; within a factor of two of the bound, rounding decides. -/
lemma powReal_natCast {x : Binary64} (hx : 1 ≤ x.toRat) (n : Nat) :
    (powReal x n = .error .overflow ∧ (bound ≤ n ∨ bound ≤ 2 * x.toRat ^ n)) ∨
      ∃ y, powReal x n = .ok (.real y) ∧ y.isFinite = true ∧ 0 ≤ y.toRat ∧
        n < bound ∧ x.toRat ^ n < 2 * bound := by
  rcases lt_or_ge n bound with hn | hn
  · obtain ⟨z, e, hz, htruncate, hnear⟩ := exists_exponent hn
    obtain ⟨hfits, houtgrows⟩ := pow_rounded hx hnear
    obtain ⟨hpower, hlarge⟩ | ⟨y, hpower, hfinite, hnonneg, hsmall⟩ := pow_natCast hx e
    · have hpow : powReal x n = .error .overflow := by
        rw [powReal, hz]
        simp only [bind, Except.bind, htruncate, hpower]
      exact Or.inl ⟨hpow, Or.inr (not_lt.1 fun hlt => absurd (hfits hlt) (not_lt.2 hlarge))⟩
    · have hpow : powReal x n = .ok (.real y) := by
        rw [powReal, hz]
        simp only [bind, Except.bind, htruncate, hpower]
      refine Or.inr ⟨y, hpow, hfinite, hnonneg, hn, not_le.1 fun hge => ?_⟩
      exact absurd (houtgrows hge) (not_le.2 hsmall)
  · refine Or.inl ⟨?_, Or.inl hn⟩
    rw [powReal, toBinary64_whole, Int.natAbs_natCast, if_neg (not_lt.2 hn)]
    rfl

lemma pow_whole (f : Int) (n : Nat) : (whole f).pow n = .ok (.whole (f ^ n)) := by
  rw [pow, if_pos (Int.natCast_nonneg n), Int.toNat_natCast]
  rfl

end Number

end StellarWallet
