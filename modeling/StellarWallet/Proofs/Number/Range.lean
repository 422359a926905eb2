import StellarWallet.Proofs.Number.Order

/-!
The range of binary64 numbers.

A quotient is rounded to a finite number just if it is below a fixed bound, half way between the
largest finite number and the power of two above it. What is one or more is rounded by less than a
53rd binary digit. So the whole numbers below the bound are those that have a binary64 number.
-/

namespace StellarWallet

namespace RoundsTo

variable {x : ℚ} {k bound : ℤ}

lemma le (h : RoundsTo x k) (hx : x ≤ bound) : k ≤ bound := by
  by_contra hlt
  have hnext : (bound : ℚ) + 1 ≤ k := by exact_mod_cast Int.not_le.1 hlt
  have hnear := (abs_le.1 h.near).1
  linarith

lemma ge (h : RoundsTo x k) (hx : bound ≤ x) : bound ≤ k := by
  by_contra hlt
  have hnext : (k : ℚ) + 1 ≤ bound := by exact_mod_cast Int.not_le.1 hlt
  have hnear := (abs_le.1 h.near).2
  linarith

/-- Half way below an even number is rounded up to it. -/
lemma lt_iff (h : RoundsTo x k) (heven : Even bound) : k < bound ↔ x < bound - 1 / 2 := by
  constructor
  · intro hlt
    have hnext : (k : ℚ) + 1 ≤ bound := by exact_mod_cast hlt
    have hnear := (abs_le.1 h.near).2
    refine lt_of_le_of_ne (by linarith) fun heq => ?_
    -- Then the number lies half way above an odd one.
    have hk : (k : ℚ) + 1 = bound := by linarith
    have hhalf : x - k = 1 / 2 := by linarith
    have hkeven := h.even (by rw [hhalf, abs_of_pos one_half_pos])
    have hodd : k + 1 = bound := by exact_mod_cast hk
    rw [← hodd, Int.even_add_one] at heven
    exact heven hkeven
  · intro hlt
    have hnear := (abs_le.1 h.near).1
    have hcast : (k : ℚ) < bound := by linarith
    exact_mod_cast hcast

end RoundsTo

namespace Binary64

/-- The least size that is too large to be rounded to a finite number. -/
@[irreducible]
def bound : ℕ := twoTo 1024 - twoTo 970

lemma bound_eq : (bound : ℚ) = ((2 : ℚ) ^ (53 : ℤ) - 1 / 2) * (2 : ℚ) ^ (971 : ℤ) := by
  have hbound : bound = (2 ^ 54 - 1) * 2 ^ 970 := by decide +kernel
  have hsplit : (2 : ℚ) ^ (971 : ℤ) = 2 * (2 : ℚ) ^ 970 := by
    rw [← zpow_natCast, ← zpow_one_add₀ two_ne_zero]
    rfl
  have hfactor : ((2 ^ 54 - 1 : ℕ) : ℚ) = ((2 : ℚ) ^ (53 : ℤ) - 1 / 2) * 2 := by norm_num
  rw [hbound, hsplit, Nat.cast_mul, hfactor, Nat.cast_pow, Nat.cast_ofNat, mul_assoc]

lemma one_lt_bound : (1 : ℚ) < bound := by
  have hlt : 1 < bound := by decide +kernel
  exact_mod_cast hlt

lemma lt_bound : (2 : ℚ) ^ (1023 : ℤ) < bound := by
  rw [bound_eq, show (1023 : ℤ) = 52 + 971 by norm_num, zpow_add₀ two_ne_zero]
  exact mul_lt_mul_of_pos_right (by norm_num) (zpow_pos two_pos _)

lemma bound_lt : (bound : ℚ) < (2 : ℚ) ^ (1024 : ℤ) := by
  rw [bound_eq, show (1024 : ℤ) = 53 + 971 by norm_num, zpow_add₀ two_ne_zero]
  exact mul_lt_mul_of_pos_right (by norm_num) (zpow_pos two_pos _)

/-! ### Exponents -/

variable {n d : Nat}

lemma scaleDown_pos (n : Nat) (hd : 0 < d) (q : Int) : 0 < (scaleDown n d q).2 := by
  unfold scaleDown
  split
  · exact Nat.mul_pos hd (twoTo_pos _)
  · exact hd

lemma scaleDown_div (n d : Nat) (q : Int) :
    ((scaleDown n d q).1 : ℚ) / (scaleDown n d q).2 = n / d * (2 : ℚ) ^ (-q) := by
  unfold scaleDown
  split
  · next h =>
    obtain ⟨j, rfl⟩ := Int.eq_ofNat_of_zero_le h
    rw [Int.toNat_natCast, twoTo, Nat.pow_eq, Nat.cast_mul, Nat.cast_pow, Nat.cast_ofNat, zpow_neg,
      zpow_natCast]
    field_simp
  · next h =>
    obtain ⟨j, hj⟩ := Int.eq_ofNat_of_zero_le (show 0 ≤ -q by omega)
    rw [hj, Int.toNat_natCast, twoTo, Nat.pow_eq, Nat.cast_mul, Nat.cast_pow, Nat.cast_ofNat,
      zpow_natCast]
    field_simp

lemma zpow_log2_le (hn : n ≠ 0) : (2 : ℚ) ^ (n.log2 : ℤ) ≤ n := by
  rw [zpow_natCast]
  exact_mod_cast Nat.log2_self_le hn

lemma lt_zpow_log2 (n : Nat) : (n : ℚ) < (2 : ℚ) ^ ((n.log2 : ℤ) + 1) := by
  have h : n < 2 ^ (n.log2 + 1) := Nat.lt_log2_self
  exact_mod_cast h

/-- With the exponent of a quotient its mantissa has 53 bits, unless the exponent is the least. -/
lemma exponentOf_spec (hn : n ≠ 0) (hd : 0 < d) :
    -1074 ≤ exponentOf n d ∧ (n : ℚ) / d < (2 : ℚ) ^ (exponentOf n d + 53) ∧
      (exponentOf n d = -1074 ∨ (2 : ℚ) ^ (exponentOf n d + 52) ≤ (n : ℚ) / d) := by
  have hdq : (0 : ℚ) < d := by exact_mod_cast hd
  have htwo : (1 : ℚ) ≤ 2 := one_le_two
  set q₀ : Int := (n.log2 : Int) - d.log2 - 53 with hq₀
  have hhigh : (n : ℚ) / d < (2 : ℚ) ^ (q₀ + 54) := by
    rw [div_lt_iff₀ hdq]
    calc (n : ℚ) < (2 : ℚ) ^ ((n.log2 : ℤ) + 1) := lt_zpow_log2 n
      _ = (2 : ℚ) ^ (q₀ + 54) * (2 : ℚ) ^ (d.log2 : ℤ) := by
        rw [← zpow_add₀ two_ne_zero]
        congr 1
        omega
      _ ≤ (2 : ℚ) ^ (q₀ + 54) * d :=
        mul_le_mul_of_nonneg_left (zpow_log2_le hd.ne') (zpow_pos two_pos _).le
  have hlow : (2 : ℚ) ^ (q₀ + 52) ≤ (n : ℚ) / d := by
    rw [le_div_iff₀ hdq]
    calc (2 : ℚ) ^ (q₀ + 52) * d ≤ (2 : ℚ) ^ (q₀ + 52) * (2 : ℚ) ^ ((d.log2 : ℤ) + 1) :=
          mul_le_mul_of_nonneg_left (lt_zpow_log2 d).le (zpow_pos two_pos _).le
      _ = (2 : ℚ) ^ (n.log2 : ℤ) := by
        rw [← zpow_add₀ two_ne_zero]
        congr 1
        omega
      _ ≤ n := zpow_log2_le hn
  -- The test tells on which side of the power of two between these bounds the quotient lies.
  have htest : (scaleDown n d q₀).1 < twoTo 53 * (scaleDown n d q₀).2
      ↔ (n : ℚ) / d < (2 : ℚ) ^ (q₀ + 53) := by
    have hpos : (0 : ℚ) < (scaleDown n d q₀).2 := by exact_mod_cast scaleDown_pos n hd q₀
    rw [add_comm q₀, zpow_add₀ two_ne_zero, ← div_lt_iff₀ (zpow_pos two_pos _), div_eq_mul_inv,
      ← zpow_neg, ← scaleDown_div, div_lt_iff₀ hpos, ← @Nat.cast_lt ℚ]
    norm_num [twoTo]
  set q : Int := if (scaleDown n d q₀).1 < twoTo 53 * (scaleDown n d q₀).2 then q₀ else q₀ + 1
    with hq
  have hbounds : (n : ℚ) / d < (2 : ℚ) ^ (q + 53) ∧ (2 : ℚ) ^ (q + 52) ≤ (n : ℚ) / d := by
    rw [hq]
    split
    · next h => exact ⟨htest.1 h, hlow⟩
    · next h =>
      rw [htest, not_lt] at h
      rw [show q₀ + 1 + 53 = q₀ + 54 by ring, show q₀ + 1 + 52 = q₀ + 53 by ring]
      exact ⟨hhigh, h⟩
  have hexponent : exponentOf n d = max (-1074) q := rfl
  rw [hexponent]
  refine ⟨le_max_left _ _, ?_, ?_⟩
  · exact hbounds.1.trans_le (zpow_le_zpow_right₀ htwo (by omega))
  · rcases le_total q (-1074) with h | h
    · exact Or.inl (max_eq_left h)
    · rw [max_eq_right h]
      exact Or.inr hbounds.2

/-! ### Rounding a quotient -/

lemma isFinite_pack_iff (negative : Bool) (m : Nat) (q : Int) :
    (pack negative m q).isFinite = true ↔ IsCanonical m q ∨ IsCanonical (m / 2) (q + 1) := by
  unfold pack
  split
  · next h => exact iff_of_true rfl (Or.inl h)
  · next h =>
    split
    · next h' => exact iff_of_true rfl (Or.inr h')
    · next h' => exact iff_of_false Bool.false_ne_true (not_or.2 ⟨h, h'⟩)

/-- The mantissa of a quotient, which may have been carried to 54 bits. -/
def mantissaOf (n d : Nat) : Nat :=
  roundQuotient (scaleDown n d (exponentOf n d)).1 (scaleDown n d (exponentOf n d)).2

lemma ofRatio_eq_pack (negative : Bool) (hn : n ≠ 0) :
    ofRatio negative n d = pack negative (mantissaOf n d) (exponentOf n d) := by
  rw [ofRatio, if_neg hn]
  rfl

lemma roundsTo_mantissaOf (n : Nat) (hd : 0 < d) :
    RoundsTo (n / d * (2 : ℚ) ^ (-exponentOf n d)) (mantissaOf n d) := by
  have h := roundsTo_roundQuotient (scaleDown n d (exponentOf n d)).1
    (scaleDown_pos n hd (exponentOf n d))
  rw [scaleDown_div] at h
  exact h

lemma mul_zpow_neg_lt_iff (x y : ℚ) (q : ℤ) : x * (2 : ℚ) ^ (-q) < y ↔ x < y * (2 : ℚ) ^ q := by
  rw [zpow_neg, ← div_eq_mul_inv, div_lt_iff₀ (zpow_pos two_pos q)]

lemma mantissaOf_le (hn : n ≠ 0) (hd : 0 < d) : mantissaOf n d ≤ 2 ^ 53 := by
  obtain ⟨-, hhigh, -⟩ := exponentOf_spec hn hd
  have hround := roundsTo_mantissaOf n hd
  have hx : n / d * (2 : ℚ) ^ (-exponentOf n d) < ((2 ^ 53 : ℕ) : ℤ) := by
    rw [mul_zpow_neg_lt_iff]
    rw [add_comm, zpow_add₀ two_ne_zero] at hhigh
    norm_num at hhigh ⊢
    exact hhigh
  exact_mod_cast hround.le hx.le

lemma le_mantissaOf (hn : n ≠ 0) (hd : 0 < d) :
    exponentOf n d = -1074 ∨ 2 ^ 52 ≤ mantissaOf n d := by
  obtain ⟨-, -, hlow⟩ := exponentOf_spec hn hd
  have hround := roundsTo_mantissaOf n hd
  refine hlow.imp_right fun hlow => ?_
  have hx : (((2 ^ 52 : ℕ) : ℤ) : ℚ) ≤ n / d * (2 : ℚ) ^ (-exponentOf n d) := by
    rw [← not_lt, mul_zpow_neg_lt_iff, not_lt]
    rw [add_comm, zpow_add₀ two_ne_zero] at hlow
    norm_num at hlow ⊢
    exact hlow
  exact_mod_cast hround.ge hx

/-- **What is rounded to a finite number.** -/
lemma isFinite_ofRatio_iff (negative : Bool) (n : Nat) (hd : 0 < d) :
    (ofRatio negative n d).isFinite = true ↔ (n : ℚ) / d < bound := by
  by_cases hn : n = 0
  · subst hn
    refine iff_of_true rfl ?_
    rw [Nat.cast_zero, zero_div]
    exact zero_lt_one.trans one_lt_bound
  obtain ⟨hleast, hhigh, -⟩ := exponentOf_spec hn hd
  have hround := roundsTo_mantissaOf n hd
  have hle := mantissaOf_le hn hd
  have hge := le_mantissaOf hn hd
  rw [ofRatio_eq_pack negative hn, isFinite_pack_iff, bound_eq]
  have h52 : twoTo 52 = 2 ^ 52 := rfl
  have h53 : twoTo 53 = 2 ^ 53 := rfl
  rcases lt_trichotomy (exponentOf n d) 971 with hsmall | hlast | hlarge
  · -- Below the largest exponent there is room for a carry.
    refine iff_of_true ?_ (hhigh.trans_le ?_)
    · by_cases hfull : mantissaOf n d = 2 ^ 53
      · refine Or.inr ?_
        rw [hfull]
        exact ⟨by decide, by omega, by omega, Or.inl (by decide)⟩
      · refine Or.inl ⟨by omega, hleast, by omega, ?_⟩
        rcases hge with hge | hge
        · exact Or.inr hge
        · exact Or.inl (by omega)
    · calc (2 : ℚ) ^ (exponentOf n d + 53) ≤ (2 : ℚ) ^ ((52 : ℤ) + 971) :=
            zpow_le_zpow_right₀ one_le_two (by omega)
        _ = (2 : ℚ) ^ (52 : ℤ) * (2 : ℚ) ^ (971 : ℤ) := zpow_add₀ two_ne_zero _ _
        _ ≤ _ := mul_le_mul_of_nonneg_right (by norm_num) (zpow_pos two_pos _).le
  · -- At the largest exponent a carry is too much, and it is a matter of rounding.
    have heven : Even ((2 ^ 53 : ℕ) : ℤ) := ⟨2 ^ 52, by norm_num⟩
    have hlt := hround.lt_iff heven
    rw [hlast, mul_zpow_neg_lt_iff] at hlt
    have hcast : (((2 ^ 53 : ℕ) : ℤ) : ℚ) - 1 / 2 = (2 : ℚ) ^ (53 : ℤ) - 1 / 2 := by norm_num
    rw [hcast] at hlt
    rw [← hlt, Nat.cast_lt]
    constructor
    · rintro (h | h)
      · exact h53 ▸ h.1
      · exact absurd h.2.2.1 (by omega)
    · intro h
      refine Or.inl ⟨h, by omega, by omega, ?_⟩
      rcases hge with hge | hge
      · exact Or.inr hge
      · exact Or.inl hge
  · -- Above it there is nothing.
    refine iff_of_false ?_ (not_lt.2 ?_)
    · rintro (h | h)
      · exact absurd h.2.2.1 (by omega)
      · exact absurd h.2.2.1 (by omega)
    · obtain ⟨-, -, hmin | hlow⟩ := exponentOf_spec hn hd
      · omega
      · refine le_trans ?_ hlow
        calc ((2 : ℚ) ^ (53 : ℤ) - 1 / 2) * (2 : ℚ) ^ (971 : ℤ)
            ≤ (2 : ℚ) ^ (53 : ℤ) * (2 : ℚ) ^ (971 : ℤ) :=
              mul_le_mul_of_nonneg_right (by norm_num) (zpow_pos two_pos _).le
          _ = (2 : ℚ) ^ ((53 : ℤ) + 971) := (zpow_add₀ two_ne_zero _ _).symm
          _ ≤ (2 : ℚ) ^ (exponentOf n d + 52) := zpow_le_zpow_right₀ one_le_two (by omega)

/-! ### What a quotient is rounded to -/

/-- A carry does not change the value. -/
lemma exists_ofRatio_eq (negative : Bool) (hn : n ≠ 0) (hd : 0 < d)
    (hlt : (n : ℚ) / d < bound) : ∃ m q hc, ofRatio negative n d = .finite negative m q hc ∧
      (m : ℚ) * (2 : ℚ) ^ q = mantissaOf n d * (2 : ℚ) ^ exponentOf n d := by
  have hfinite := (isFinite_ofRatio_iff negative n hd).2 hlt
  obtain ⟨hleast, -, -⟩ := exponentOf_spec hn hd
  have hle := mantissaOf_le hn hd
  rw [ofRatio_eq_pack negative hn] at hfinite ⊢
  unfold pack at hfinite ⊢
  split
  · next h => exact ⟨_, _, h, rfl, rfl⟩
  · next h =>
    rw [dif_neg h] at hfinite
    split
    · next h' =>
      have h52 : twoTo 52 = 2 ^ 52 := rfl
      have hfull : mantissaOf n d = 2 ^ 53 := by
        obtain ⟨-, -, -, hhalf | hhalf⟩ := h'
        · omega
        · omega
      refine ⟨_, _, h', rfl, ?_⟩
      rw [hfull, zpow_add₀ two_ne_zero]
      norm_num
      ring
    · next h' =>
      rw [dif_neg h'] at hfinite
      cases hfinite

lemma ofRatio_of_ge (negative : Bool) (hn : n ≠ 0) (hd : 0 < d) (hge : (bound : ℚ) ≤ n / d) :
    ofRatio negative n d = .infinite negative := by
  have hinfinite := (isFinite_ofRatio_iff negative n hd).not.2 (not_lt.2 hge)
  rw [ofRatio_eq_pack negative hn] at hinfinite ⊢
  unfold pack at hinfinite ⊢
  split
  · next h => exact absurd (by rw [dif_pos h]; rfl) hinfinite
  · next h =>
    rw [dif_neg h] at hinfinite
    split
    · next h' => exact absurd (by rw [dif_pos h']; rfl) hinfinite
    · rfl

/-- What is one or more is rounded by less than a 53rd binary digit. -/
lemma exists_ofRatio_near (negative : Bool) (hd : 0 < d) (hone : 1 ≤ (n : ℚ) / d)
    (hlt : (n : ℚ) / d < bound) : ∃ m q hc, ofRatio negative n d = .finite negative m q hc ∧
      |m * (2 : ℚ) ^ q - n / d| ≤ n / d / 2 ^ 53 := by
  have hn : n ≠ 0 := by
    rintro rfl
    norm_num at hone
  obtain ⟨m, q, hc, hratio, hvalue⟩ := exists_ofRatio_eq negative hn hd hlt
  refine ⟨m, q, hc, hratio, ?_⟩
  have hpos : (0 : ℚ) < (2 : ℚ) ^ exponentOf n d := zpow_pos two_pos _
  have hscale : mantissaOf n d * (2 : ℚ) ^ exponentOf n d - (n : ℚ) / d
      = -(n / d * (2 : ℚ) ^ (-exponentOf n d) - mantissaOf n d) * (2 : ℚ) ^ exponentOf n d := by
    rw [zpow_neg]
    field_simp
    ring
  have hnear := (roundsTo_mantissaOf n hd).near
  rw [hvalue, hscale, abs_mul, abs_neg, abs_of_pos hpos]
  refine (mul_le_mul_of_nonneg_right hnear hpos.le).trans ?_
  obtain ⟨-, -, hleast | hlow⟩ := exponentOf_spec hn hd
  · rw [hleast]
    calc (1 : ℚ) / 2 * (2 : ℚ) ^ (-1074 : ℤ) ≤ 1 / 2 * (2 : ℚ) ^ (-52 : ℤ) :=
          mul_le_mul_of_nonneg_left (zpow_le_zpow_right₀ one_le_two (by norm_num)) one_half_pos.le
      _ = 1 / 2 ^ 53 := by norm_num
      _ ≤ _ := div_le_div_of_nonneg_right hone (by norm_num)
  · rw [zpow_add₀ two_ne_zero] at hlow
    rw [le_div_iff₀ (by norm_num)]
    norm_num at hlow ⊢
    linarith

/-- A crude limit that also holds below one. -/
lemma toRat_ofRatio_le (negative : Bool) (hd : 0 < d) (hlt : (n : ℚ) / d < bound) :
    (ofRatio negative n d).toRat ≤ 2 * (n / d) + 1 := by
  have hratio : (0 : ℚ) ≤ n / d := div_nonneg (Nat.cast_nonneg n) (Nat.cast_nonneg d)
  by_cases hn : n = 0
  · rw [ofRatio, if_pos hn, toRat_zero]
    linarith
  obtain ⟨m, q, hc, hfinite, hvalue⟩ := exists_ofRatio_eq negative hn hd hlt
  have hpos : (0 : ℚ) ≤ m * (2 : ℚ) ^ q := mul_nonneg (Nat.cast_nonneg m) (zpow_pos two_pos q).le
  have hmantissa : (mantissaOf n d : ℚ) ≤ 2 ^ 53 := by exact_mod_cast mantissaOf_le hn hd
  have hsize : m * (2 : ℚ) ^ q ≤ 2 ^ 53 * (2 : ℚ) ^ exponentOf n d := by
    rw [hvalue]
    exact mul_le_mul_of_nonneg_right hmantissa (zpow_pos two_pos _).le
  have hupper : (2 : ℚ) ^ 53 * (2 : ℚ) ^ exponentOf n d ≤ 2 * (n / d) + 1 := by
    obtain ⟨-, -, hleast | hlow⟩ := exponentOf_spec hn hd
    · have hunit : (2 : ℚ) ^ 53 * (2 : ℚ) ^ (-1074 : ℤ) ≤ (2 : ℚ) ^ 53 * (2 : ℚ) ^ (-53 : ℤ) :=
        mul_le_mul_of_nonneg_left (zpow_le_zpow_right₀ one_le_two (by norm_num)) (by norm_num)
      have hone : (2 : ℚ) ^ 53 * (2 : ℚ) ^ (-53 : ℤ) = 1 := by norm_num
      rw [hleast]
      linarith
    · rw [zpow_add₀ two_ne_zero] at hlow
      norm_num at hlow ⊢
      linarith
  rw [hfinite, toRat]
  cases negative with
  | false => exact hsize.trans hupper
  | true => exact (neg_nonpos.2 hpos).trans (by linarith)

lemma ofScaled_eq_ofRatio (negative : Bool) (m : Nat) (q : Int) : ∃ n d : Nat, 0 < d ∧
    ofScaled negative m q = ofRatio negative n d ∧ (n : ℚ) / d = m * (2 : ℚ) ^ q ∧
      (m = 0 → n = 0) := by
  unfold ofScaled
  split
  · next h =>
    obtain ⟨j, rfl⟩ := Int.eq_ofNat_of_zero_le h
    refine ⟨_, 1, Nat.one_pos, rfl, ?_, fun hm => by rw [hm, Nat.zero_mul]⟩
    rw [Int.toNat_natCast, twoTo, Nat.pow_eq, zpow_natCast]
    push_cast
    ring
  · next h =>
    obtain ⟨j, hj⟩ := Int.eq_ofNat_of_zero_le (show 0 ≤ -q by omega)
    obtain rfl : q = -(j : ℤ) := by omega
    refine ⟨m, _, twoTo_pos _, rfl, ?_, id⟩
    rw [neg_neg, Int.toNat_natCast, twoTo, Nat.pow_eq, zpow_neg, zpow_natCast]
    push_cast
    rw [div_eq_mul_inv]

lemma isFinite_ofScaled_iff (negative : Bool) (m : Nat) (q : Int) :
    (ofScaled negative m q).isFinite = true ↔ (m : ℚ) * (2 : ℚ) ^ q < bound := by
  obtain ⟨n, d, hd, hratio, hvalue, -⟩ := ofScaled_eq_ofRatio negative m q
  rw [hratio, isFinite_ofRatio_iff negative n hd, hvalue]

lemma isGrown_ofRatio (n : Nat) (hd : 0 < d) : (Number.real (ofRatio false n d)).IsGrown := by
  by_cases hn : n = 0
  · rw [ofRatio, if_pos hn]
    exact Or.inl ⟨rfl, (toRat_zero false).ge⟩
  · rcases lt_or_ge ((n : ℚ) / d) bound with hlt | hge
    · obtain ⟨m, q, hc, hfinite, -⟩ := exists_ofRatio_eq false hn hd hlt
      rw [hfinite]
      refine Or.inl ⟨rfl, ?_⟩
      exact mul_nonneg (Nat.cast_nonneg m) (zpow_pos two_pos q).le
    · rw [ofRatio_of_ge false hn hd hge]
      exact Or.inr rfl

/-- Without a minus sign, or of nothing, no negative number comes. -/
lemma isGrown_ofScaled {negative : Bool} {m : Nat} (h : negative = false ∨ m = 0) (q : Int) :
    (Number.real (ofScaled negative m q)).IsGrown := by
  obtain ⟨n, d, hd, hratio, -, hzero⟩ := ofScaled_eq_ofRatio negative m q
  rw [hratio]
  rcases h with rfl | hm
  · exact isGrown_ofRatio n hd
  · rw [hzero hm, ofRatio, if_pos rfl]
    exact Or.inl ⟨rfl, (toRat_zero negative).ge⟩

/-! ### Whole numbers -/

lemma isFinite_ofInt_iff (n : Int) : (ofInt n).isFinite = true ↔ n.natAbs < bound := by
  rw [ofInt, isFinite_ofRatio_iff _ _ Nat.one_pos, Nat.cast_one, div_one, Nat.cast_lt]

lemma toRat_lt_bound (x : Binary64) : x.toRat < bound := by
  have hpos : (0 : ℚ) < bound := zero_lt_one.trans one_lt_bound
  cases x with
  | nan => exact hpos
  | infinite _ => exact hpos
  | finite negative m q hc =>
    have hm : (m : ℚ) ≤ (2 : ℚ) ^ (53 : ℤ) - 1 := by
      have hlt : m + 1 ≤ 2 ^ 53 := hc.1
      have hcast : (m : ℚ) + 1 ≤ 2 ^ 53 := by exact_mod_cast hlt
      norm_num at hcast ⊢
      linarith
    have hsize : (m : ℚ) * (2 : ℚ) ^ q < bound := by
      rw [bound_eq]
      calc (m : ℚ) * (2 : ℚ) ^ q ≤ ((2 : ℚ) ^ (53 : ℤ) - 1) * (2 : ℚ) ^ (971 : ℤ) :=
            mul_le_mul hm (zpow_le_zpow_right₀ one_le_two hc.2.2.1) (zpow_pos two_pos _).le
              (by norm_num)
        _ < ((2 : ℚ) ^ (53 : ℤ) - 1 / 2) * (2 : ℚ) ^ (971 : ℤ) :=
            mul_lt_mul_of_pos_right (by norm_num) (zpow_pos two_pos _)
    have hnonneg : (0 : ℚ) ≤ m * (2 : ℚ) ^ q :=
      mul_nonneg (Nat.cast_nonneg m) (zpow_pos two_pos q).le
    cases negative with
    | false => exact hsize
    | true => exact (neg_nonpos.2 hnonneg).trans_lt hpos

/-- Only zero has a minus sign without being negative. -/
lemma mantissa_eq_zero {m : Nat} {q : Int} {hc : IsCanonical m q}
    (h : 0 ≤ toRat (.finite true m q hc)) : m = 0 := by
  have hpos : (0 : ℚ) < (2 : ℚ) ^ q := zpow_pos two_pos q
  have hneg : (m : ℚ) * (2 : ℚ) ^ q ≤ 0 := neg_nonneg.1 h
  have hzero : (m : ℚ) ≤ 0 := nonpos_of_mul_nonpos_left hneg hpos
  exact Nat.le_zero.1 (by exact_mod_cast hzero)

lemma isGrown_mul {x y : Binary64} (hx : x.isFinite = true) (hx' : 0 ≤ x.toRat)
    (hy : y.isFinite = true) (hy' : 0 ≤ y.toRat) : (Number.real (x.mul y)).IsGrown := by
  cases x with
  | finite a m q _ =>
    cases y with
    | finite b n r _ =>
      refine isGrown_ofScaled ?_ (q + r)
      cases a with
      | true => exact Or.inr (by rw [mantissa_eq_zero hx', Nat.zero_mul])
      | false =>
        cases b with
        | true => exact Or.inr (by rw [mantissa_eq_zero hy', Nat.mul_zero])
        | false => exact Or.inl rfl
    | _ => cases hy
  | _ => cases hx

/-- A product is not much more than twice what it is rounded from. -/
lemma toRat_mul_le {x y : Binary64} (hx : x.isFinite = true) (hx' : 0 ≤ x.toRat)
    (hy : y.isFinite = true) (hy' : 0 ≤ y.toRat) (hlt : x.toRat * y.toRat < bound) :
    (x.mul y).isFinite = true ∧ (x.mul y).toRat ≤ 2 * (x.toRat * y.toRat) + 1 := by
  cases x with
  | finite a m q _ =>
    cases y with
    | finite b n r _ =>
      have habs {a : Bool} {m : Nat} {q : Int} {hc : IsCanonical m q}
          (h : 0 ≤ toRat (.finite a m q hc)) : toRat (.finite a m q hc) = m * (2 : ℚ) ^ q := by
        cases a with
        | false => rfl
        | true => rw [toRat, mantissa_eq_zero h, signed]; simp
      have hproduct : ((m * n : ℕ) : ℚ) * (2 : ℚ) ^ (q + r)
          = toRat (.finite a m q ‹_›) * toRat (.finite b n r ‹_›) := by
        rw [habs hx', habs hy', zpow_add₀ two_ne_zero, Nat.cast_mul]
        ring
      obtain ⟨k, d, hd, hscaled, hratio, -⟩ := ofScaled_eq_ofRatio (a != b) (m * n) (q + r)
      rw [← hproduct] at hlt ⊢
      rw [mul, isFinite_ofScaled_iff, hscaled, ← hratio]
      exact ⟨hratio ▸ hlt, toRat_ofRatio_le _ hd (hratio ▸ hlt)⟩
    | _ => cases hy
  | _ => cases hx

lemma toRat_ofInt {n : Nat} (h : n ≤ twoTo 53) : (ofInt n).toRat = n := by
  obtain ⟨m, q, hc, hratio, hvalue⟩ := exists_ofRatio_one false h
  rw [ofInt, Int.natAbs_natCast, decide_eq_false (by omega), hratio, hvalue]
  rfl

/-- A number whose value is whole loses nothing when its places are cut off. -/
lemma truncate?_of_eq {m : Nat} {q : Int} (hc : IsCanonical m q) {k : Nat}
    (h : (m : ℚ) * (2 : ℚ) ^ q = k) : truncate? (.finite false m q hc) = some (k : Int) := by
  have hpos := ratio_pos m q
  have hratio : (ratio m q).1 = k * (ratio m q).2 := by
    have hvalue := (ratio_div m q).trans h
    rw [div_eq_iff (by exact_mod_cast hpos.ne')] at hvalue
    exact_mod_cast hvalue
  rw [truncate?]
  dsimp only
  rw [hratio, Nat.mul_div_cancel _ hpos]
  rfl

end Binary64

namespace Number

/-- The whole numbers that have a binary64 number. -/
lemma toBinary64_whole (n : Int) : toBinary64 (.whole n)
    = if n.natAbs < Binary64.bound then .ok (.ofInt n) else .error .overflow :=
  if_congr (Binary64.isFinite_ofInt_iff n) rfl rfl

lemma toBinary64_of_nonneg {a : Number} (ha : a.IsFinite) (hnonneg : 0 ≤ a.toRat) :
    (a.toBinary64 = .error .overflow ∧ Binary64.bound ≤ a.toRat) ∨
      ∃ x, a.toBinary64 = .ok x ∧ x.isFinite = true ∧ 0 ≤ x.toRat ∧ a.toRat < Binary64.bound := by
  cases a with
  | real x => exact Or.inr ⟨x, rfl, ha, hnonneg, Binary64.toRat_lt_bound x⟩
  | whole n =>
    rw [toRat] at hnonneg
    have hn : 0 ≤ n := by exact_mod_cast hnonneg
    obtain ⟨k, rfl⟩ := Int.eq_ofNat_of_zero_le hn
    rw [toBinary64_whole, Int.natAbs_natCast, toRat, Int.cast_natCast, Nat.cast_lt, Nat.cast_le]
    split
    · next hlt =>
      have hfinite := (Binary64.isFinite_ofInt_iff k).2 hlt
      refine Or.inr ⟨_, rfl, hfinite, ?_, hlt⟩
      rw [Binary64.ofInt, decide_eq_false (not_lt.2 hn)] at hfinite ⊢
      exact (Binary64.isGrown_ofRatio _ Nat.one_pos).nonneg hfinite
    · next hge => exact Or.inl ⟨rfl, not_lt.1 hge⟩

/-- A product of what is not negative has no value only if a factor is too large. -/
lemma mul_of_nonneg {a b : Number} (ha : a.IsFinite) (ha' : 0 ≤ a.toRat) (hb : b.IsFinite)
    (hb' : 0 ≤ b.toRat) :
    (a.mul b = .error .overflow ∧ (Binary64.bound ≤ a.toRat ∨ Binary64.bound ≤ b.toRat)) ∨
      ∃ c, a.mul b = .ok c ∧ c.IsGrown ∧ ((∃ n k, a = .whole n ∧ b = .whole k) ∨
        a.toRat < Binary64.bound ∧ b.toRat < Binary64.bound) := by
  by_cases hwhole : ∃ n k, a = .whole n ∧ b = .whole k
  · obtain ⟨n, k, rfl, rfl⟩ := hwhole
    refine Or.inr ⟨_, rfl, Or.inl ⟨trivial, ?_⟩, Or.inl ⟨n, k, rfl, rfl⟩⟩
    rw [toRat, Int.cast_mul]
    exact mul_nonneg ha' hb'
  · have hmul : a.mul b = do return .real ((← a.toBinary64).mul (← b.toBinary64)) := by
      cases a with
      | real x => cases b <;> rfl
      | whole n =>
        cases b with
        | real y => rfl
        | whole k => exact absurd ⟨n, k, rfl, rfl⟩ hwhole
    rw [hmul]
    obtain ⟨hx, hlarge⟩ | ⟨x, hx, hxfinite, hx', hxlt⟩ := toBinary64_of_nonneg ha ha'
    · exact Or.inl ⟨by rw [hx]; rfl, Or.inl hlarge⟩
    · obtain ⟨hy, hlarge⟩ | ⟨y, hy, hyfinite, hy', hylt⟩ := toBinary64_of_nonneg hb hb'
      · exact Or.inl ⟨by rw [hx, hy]; rfl, Or.inr hlarge⟩
      · exact Or.inr ⟨_, by rw [hx, hy]; rfl, Binary64.isGrown_mul hxfinite hx' hyfinite hy',
          Or.inr ⟨hxlt, hylt⟩⟩

/-- A natural number as an exponent: rounded to 53 binary digits. -/
lemma exists_exponent {n : Nat} (h : n < Binary64.bound) : ∃ (x : Binary64) (e : Nat),
    toBinary64 (.whole n) = .ok x ∧ x.truncate? = some (e : Int) ∧
      |(e : ℚ) - n| ≤ n / 2 ^ 53 := by
  have hok : toBinary64 (.whole n) = .ok (.ofRatio false n 1) := by
    rw [toBinary64_whole, Int.natAbs_natCast, if_pos h, Binary64.ofInt, Int.natAbs_natCast,
      decide_eq_false (by omega)]
  rcases le_or_gt n (twoTo 53) with hsmall | hlarge
  · obtain ⟨m, q, hc, hratio, hvalue⟩ := Binary64.exists_ofRatio_one false hsmall
    refine ⟨_, n, hok, ?_, by rw [sub_self, abs_zero]; positivity⟩
    rw [hratio]
    exact Binary64.truncate?_of_eq hc hvalue.symm
  · have hcast : (twoTo 53 : ℚ) < n := by exact_mod_cast hlarge
    have htwo : (twoTo 53 : ℚ) = 2 ^ 53 := by norm_num [twoTo]
    rw [htwo] at hcast
    have hone : (1 : ℚ) ≤ (n : ℚ) / (1 : ℕ) := by
      rw [Nat.cast_one, div_one]
      linarith [show (1 : ℚ) ≤ 2 ^ 53 by norm_num]
    have hlt : (n : ℚ) / (1 : ℕ) < Binary64.bound := by
      rw [Nat.cast_one, div_one]
      exact_mod_cast h
    obtain ⟨m, q, hc, hratio, hnear⟩ :=
      Binary64.exists_ofRatio_near false Nat.one_pos hone hlt
    rw [Nat.cast_one, div_one] at hnear
    -- Beyond 2^53 binary64 numbers are whole.
    have hq : 0 ≤ q := by
      by_contra hneg
      have hm : (m : ℚ) < 2 ^ 53 := by exact_mod_cast hc.1
      have hsmall : (m : ℚ) * (2 : ℚ) ^ q ≤ m * (2 : ℚ) ^ (-1 : ℤ) :=
        mul_le_mul_of_nonneg_left (zpow_le_zpow_right₀ one_le_two (by omega)) (Nat.cast_nonneg m)
      have hfar := (abs_le.1 hnear).1
      have hpow : (2 : ℚ) ^ (-1 : ℤ) = 1 / 2 := by norm_num
      rw [hpow] at hsmall
      linarith
    obtain ⟨j, rfl⟩ := Int.eq_ofNat_of_zero_le hq
    have hvalue : (m : ℚ) * (2 : ℚ) ^ (j : ℤ) = (m * 2 ^ j : ℕ) := by
      rw [zpow_natCast, Nat.cast_mul, Nat.cast_pow, Nat.cast_ofNat]
    refine ⟨_, m * 2 ^ j, hok, ?_, ?_⟩
    · rw [hratio]
      exact Binary64.truncate?_of_eq hc hvalue
    · rw [← hvalue]
      exact hnear

end Number

end StellarWallet
