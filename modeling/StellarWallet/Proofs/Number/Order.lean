import StellarWallet.Proofs.Number.Rounding

/-!
The order of numbers is that of their exact values.

A finite number, whole or binary64, has a rational value, and one finite number is less than another
just if its value is. Of two numbers the lesser one is kept, so that a limit is never exceeded.
-/

namespace StellarWallet

namespace Binary64

/-- The value of a finite number; zero for any other. -/
def toRat : Binary64 → ℚ
  | .finite negative m q _ => signed negative (m * (2 : ℚ) ^ q)
  | _ => 0

/-- A mantissa moved to a lower exponent stands for the same value. -/
lemma mantissaAt_mul (negative : Bool) (m : Nat) {q low : Int} (h : low ≤ q) :
    (mantissaAt negative m q low : ℚ) * (2 : ℚ) ^ low = signed negative (m * (2 : ℚ) ^ q) := by
  have hpow : ((twoTo (q - low).toNat : ℕ) : ℚ) * (2 : ℚ) ^ low = (2 : ℚ) ^ q := by
    have hexp : (((q - low).toNat : ℕ) : ℤ) = q - low := Int.toNat_of_nonneg (by omega)
    rw [twoTo, Nat.pow_eq, Nat.cast_pow, Nat.cast_ofNat, ← zpow_natCast, hexp,
      ← zpow_add₀ two_ne_zero, sub_add_cancel]
  have hmantissa : ((m * twoTo (q - low).toNat : ℕ) : ℚ) * (2 : ℚ) ^ low = m * (2 : ℚ) ^ q := by
    rw [Nat.cast_mul, mul_assoc, hpow]
  unfold mantissaAt signed
  cases negative with
  | false => exact hmantissa
  | true =>
    rw [if_pos rfl, if_pos rfl, Int.cast_neg, Int.cast_natCast, neg_mul, hmantissa]

lemma lt_iff_toRat {x y : Binary64} (hx : x.isFinite = true) (hy : y.isFinite = true) :
    x.lt y = true ↔ x.toRat < y.toRat := by
  cases x with
  | finite a m q _ =>
    cases y with
    | finite b n r _ =>
      have hpos : (0 : ℚ) < (2 : ℚ) ^ min q r := zpow_pos two_pos _
      rw [lt, decide_eq_true_iff, toRat, toRat, ← mantissaAt_mul a m (min_le_left q r),
        ← mantissaAt_mul b n (min_le_right q r), mul_lt_mul_iff_left₀ hpos, Int.cast_lt]
    | _ => cases hy
  | _ => cases hx

lemma toRat_zero (negative : Bool) : (zero negative).toRat = 0 := by
  cases negative <;> simp [zero, toRat, signed]

end Binary64

namespace Number

/-- The value of a finite number; zero for any other. -/
def toRat : Number → ℚ
  | .whole n => n
  | .real x => x.toRat

/-- Neither infinite nor none. -/
def IsFinite : Number → Prop
  | .whole _ => True
  | .real x => x.isFinite = true

instance (a : Number) : Decidable a.IsFinite :=
  match a with
  | .whole _ => inferInstanceAs (Decidable True)
  | .real _ => inferInstanceAs (Decidable (_ = _))

/-- A quotient of natural numbers with a sign, compared with a whole number. -/
lemma signed_div (negative : Bool) (m : Nat) (q : Int) :
    ((if negative then -((Binary64.ratio m q).1 : ℤ) else ((Binary64.ratio m q).1 : ℤ) : ℤ) : ℚ)
      / (Binary64.ratio m q).2 = signed negative (m * (2 : ℚ) ^ q) := by
  rw [← Binary64.ratio_div, signed]
  cases negative with
  | false => rfl
  | true => rw [if_pos rfl, if_pos rfl, Int.cast_neg, Int.cast_natCast, neg_div]

lemma lt_iff_toRat {a b : Number} (ha : a.IsFinite) (hb : b.IsFinite) :
    a.lt b = true ↔ a.toRat < b.toRat := by
  cases a with
  | whole n =>
    cases b with
    | whole k => rw [lt, decide_eq_true_iff, toRat, toRat, Int.cast_lt]
    | real y =>
      cases y with
      | finite negative m q _ =>
        have hpos : (0 : ℚ) < (Binary64.ratio m q).2 := by exact_mod_cast Binary64.ratio_pos m q
        rw [lt, decide_eq_true_iff, toRat, toRat, Binary64.toRat, ← signed_div, lt_div_iff₀ hpos]
        exact_mod_cast Iff.rfl
      | _ => cases hb
  | real x =>
    cases b with
    | whole k =>
      cases x with
      | finite negative m q _ =>
        have hpos : (0 : ℚ) < (Binary64.ratio m q).2 := by exact_mod_cast Binary64.ratio_pos m q
        rw [lt, decide_eq_true_iff, toRat, toRat, Binary64.toRat, ← signed_div, div_lt_iff₀ hpos]
        exact_mod_cast Iff.rfl
      | _ => cases ha
    | real y => exact Binary64.lt_iff_toRat ha hb

/-- What an amount that only grows may come to: not negative, and perhaps too large for binary64. -/
def IsGrown (a : Number) : Prop := a.IsFinite ∧ 0 ≤ a.toRat ∨ a = .real (.infinite false)

lemma IsGrown.nonneg {a : Number} (h : a.IsGrown) (hfinite : a.IsFinite) : 0 ≤ a.toRat := by
  rcases h with ⟨-, hnonneg⟩ | rfl
  · exact hnonneg
  · cases hfinite

/-- A limit is kept. -/
lemma min_le {a b : Number} (ha : a.IsGrown) (hb : b.IsFinite) (hpos : 0 ≤ b.toRat) :
    (a.min b).IsFinite ∧ 0 ≤ (a.min b).toRat ∧ (a.min b).toRat ≤ b.toRat := by
  rw [min]
  rcases ha with ⟨hfinite, hnonneg⟩ | rfl
  · split
    · exact ⟨hb, hpos, le_rfl⟩
    · next h =>
      rw [lt_iff_toRat hb hfinite, not_lt] at h
      exact ⟨hfinite, hnonneg, h⟩
  · have hless : b.lt (.real (.infinite false)) = true := by
      cases b with
      | whole n => rfl
      | real x =>
        cases x with
        | finite negative m q _ => rfl
        | _ => cases hb
    rw [if_pos hless]
    exact ⟨hb, hpos, le_rfl⟩

end Number

end StellarWallet
