import StellarWallet.Proofs.Balance.AmountText
import StellarWallet.Proofs.Balance.Amounts
import StellarWallet.Proofs.Number.Range
import StellarWallet.Proofs.Number.Spelling

/-!
Any value as an amount.

A value counts as the finite number that it stands for, if that is not negative, and as zero
otherwise. There is one exception: a whole number that is too large for binary64 has no amount, and
neither have the locked amounts of a reply in which such a number stands.
-/

namespace StellarWallet

open Binary64 (bound)

namespace Binary64

lemma isNegative_ofRatio (negative : Bool) (n d : Nat) :
    (ofRatio negative n d).isNegative = negative := by
  unfold ofRatio
  split
  · rfl
  · dsimp only
    unfold pack
    split
    · rfl
    · split <;> rfl

lemma toRat_nonpos {x : Binary64} (h : x.isNegative = true) : x.toRat ≤ 0 := by
  cases x with
  | nan => exact le_rfl
  | infinite _ => exact le_rfl
  | finite negative m q _ =>
    cases h
    exact neg_nonpos.2 (mul_nonneg (Nat.cast_nonneg m) (zpow_pos two_pos q).le)

lemma toRat_nonneg {x : Binary64} (h : x.isNegative = false) : 0 ≤ x.toRat := by
  cases x with
  | nan => exact le_rfl
  | infinite _ => exact le_rfl
  | finite negative m q _ =>
    cases h
    exact mul_nonneg (Nat.cast_nonneg m) (zpow_pos two_pos q).le

end Binary64

namespace Numeral

variable {n : Numeral}

lemma isNegative_toBinary64 (n : Numeral) : n.toBinary64.isNegative = n.negative := by
  unfold toBinary64
  split
  · rfl
  · split
    · rfl
    · split
      · rfl
      · split <;> exact Binary64.isNegative_ofRatio _ _ _

lemma abs_toRat (n : Numeral) : |n.toRat| = n.coefficient * (10 : ℚ) ^ n.exponent := by
  have hnonneg : (0 : ℚ) ≤ n.coefficient * (10 : ℚ) ^ n.exponent :=
    mul_nonneg (Nat.cast_nonneg _) (zpow_pos (by norm_num) _).le
  rw [toRat, signed]
  split
  · rw [abs_neg, abs_of_nonneg hnonneg]
  · exact abs_of_nonneg hnonneg

lemma bound_le : (bound : ℚ) ≤ (10 : ℚ) ^ (400 : ℤ) := by
  calc (bound : ℚ) ≤ (2 : ℚ) ^ (1024 : ℤ) := Binary64.bound_lt.le
    _ = (2 : ℚ) ^ 1024 := zpow_natCast 2 1024
    _ ≤ 2 ^ (3 * 342) := pow_le_pow_right₀ one_le_two (by norm_num)
    _ = (2 ^ 3) ^ 342 := pow_mul 2 3 342
    _ ≤ 10 ^ 342 := pow_le_pow_left₀ (by norm_num) (by norm_num) 342
    _ ≤ 10 ^ 400 := pow_le_pow_right₀ (by norm_num) (by norm_num)
    _ = (10 : ℚ) ^ (400 : ℤ) := (zpow_natCast 10 400).symm

/-- A numeral is read as a finite number just if its value is in the range of binary64. -/
lemma isFinite_toBinary64_iff (h : n.coefficient < 10 ^ n.written) :
    n.toBinary64.isFinite = true ↔ |n.toRat| < bound := by
  have hone := Binary64.one_lt_bound
  rw [abs_toRat]
  unfold toBinary64
  split
  · next hzero =>
    rw [hzero, Nat.cast_zero, zero_mul]
    exact iff_of_true rfl (zero_lt_one.trans hone)
  · next hne =>
    have hpos : (1 : ℚ) ≤ n.coefficient := by exact_mod_cast Nat.one_le_iff_ne_zero.2 hne
    split
    · next hlarge =>
      refine iff_of_false Bool.false_ne_true (not_lt.2 (bound_le.trans ?_))
      rw [reach] at hlarge
      calc (10 : ℚ) ^ (400 : ℤ) ≤ (10 : ℚ) ^ n.exponent :=
            zpow_le_zpow_right₀ (by norm_num) hlarge.le
        _ ≤ n.coefficient * (10 : ℚ) ^ n.exponent :=
            le_mul_of_one_le_left (zpow_pos (by norm_num) _).le hpos
    · split
      · next hsmall =>
        refine iff_of_true rfl (lt_trans ?_ hone)
        rw [reach] at hsmall
        have hcoefficient : (n.coefficient : ℚ) < (10 : ℚ) ^ (n.written : ℤ) := by
          rw [zpow_natCast]
          exact_mod_cast h
        calc n.coefficient * (10 : ℚ) ^ n.exponent
            < (10 : ℚ) ^ (n.written : ℤ) * (10 : ℚ) ^ n.exponent :=
              mul_lt_mul_of_pos_right hcoefficient (zpow_pos (by norm_num) _)
          _ = (10 : ℚ) ^ (n.written + n.exponent) := (zpow_add₀ (by norm_num) _ _).symm
          _ ≤ 1 := zpow_le_one_of_nonpos₀ (by norm_num) (by omega)
      · split
        · next hnonneg =>
          rw [Binary64.isFinite_ofRatio_iff _ _ Nat.one_pos]
          obtain ⟨k, hk⟩ := Int.eq_ofNat_of_zero_le hnonneg
          rw [hk, Int.toNat_natCast, zpow_natCast, tenTo, Nat.pow_eq]
          push_cast
          rw [div_one]
        · next hneg =>
          obtain ⟨k, hk⟩ := Int.eq_ofNat_of_zero_le (show 0 ≤ -n.exponent by omega)
          rw [Binary64.isFinite_ofRatio_iff _ _ (tenTo_pos _), hk, Int.toNat_natCast,
            show n.exponent = -(k : ℤ) by omega, zpow_neg, zpow_natCast, tenTo, Nat.pow_eq]
          push_cast
          rw [div_eq_mul_inv]

lemma toRat_toBinary64_nonneg (h : 0 ≤ n.toRat) : 0 ≤ n.toBinary64.toRat := by
  cases hsign : n.negative with
  | false => exact Binary64.toRat_nonneg ((isNegative_toBinary64 n).trans hsign)
  | true =>
    have hpos : (0 : ℚ) < (10 : ℚ) ^ n.exponent := zpow_pos (by norm_num) _
    rw [toRat, hsign] at h
    have hneg : (n.coefficient : ℚ) * (10 : ℚ) ^ n.exponent ≤ 0 := neg_nonneg.1 h
    have hzero : n.coefficient = 0 :=
      Nat.le_zero.1 (by exact_mod_cast nonpos_of_mul_nonpos_left hneg hpos)
    rw [toBinary64, if_pos hzero, Binary64.toRat_zero]

lemma toRat_toBinary64_nonpos (h : n.toRat < 0) : n.toBinary64.toRat ≤ 0 := by
  cases hsign : n.negative with
  | true => exact Binary64.toRat_nonpos ((isNegative_toBinary64 n).trans hsign)
  | false =>
    rw [toRat, hsign] at h
    have hnonneg : (0 : ℚ) ≤ n.coefficient * (10 : ℚ) ^ n.exponent :=
      mul_nonneg (Nat.cast_nonneg _) (zpow_pos (by norm_num) _).le
    exact absurd h (not_lt.2 hnonneg)

end Numeral

namespace Amount

lemma isAmount_iff {x : Binary64} : IsAmount x ↔ x.isFinite = true ∧ 0 ≤ x.toRat := by
  have hless (hfinite : x.isFinite = true) : x.lt (.zero false) = false ↔ 0 ≤ x.toRat := by
    rw [Bool.eq_false_iff, ne_eq, Binary64.lt_iff_toRat hfinite rfl, Binary64.toRat_zero, not_lt]
  exact ⟨fun h => ⟨h.finite, (hless h.finite).1 h.not_negative⟩, fun h => ⟨h.1, (hless h.1).2 h.2⟩⟩

/-- The value stands for a finite number that is not negative: it is one, or a text that spells
one. -/
inductive Stands : Value → Binary64 → Prop where
  | whole {n : Nat} (h : n < bound) : Stands (.number (.whole n)) (.ofInt n)
  | real {x : Binary64} (h : x.isFinite = true) (hnonneg : 0 ≤ x.toRat) :
    Stands (.number (.real x)) x
  | text {s : String} {n : Numeral} (h : Numeral.IsTyped s.toList n) (hnonneg : 0 ≤ n.toRat)
      (hlt : n.toRat < bound) : Stands (.text s) n.toBinary64
  | bytes {bs : List UInt8} {cs : List Char} {n : Numeral} (hascii : ascii? bs = some cs)
      (h : Numeral.IsTyped cs n) (hnonneg : 0 ≤ n.toRat) (hlt : n.toRat < bound) :
    Stands (.bytes bs) n.toBinary64

/-- A whole number too large for binary64. -/
def IsTooLarge (v? : Option Value) : Prop :=
  ∃ n : Int, v? = some (.number (.whole n)) ∧ bound ≤ n.natAbs

/-- What a value that may be missing counts as: the finite number that it stands for, if that is not
negative, and else zero. -/
structure CountsAs (v? : Option Value) (x : Binary64) : Prop where
  finite : x.isFinite = true
  nonneg : 0 ≤ x.toRat
  eq_of_stands : ∀ v ∈ v?, ∀ y, Stands v y → x = y
  zero_of_not_stands : (∀ v ∈ v?, ∀ y, ¬ Stands v y) → x.toRat = 0

variable {v : Value} {v? : Option Value} {x : Binary64} {cs : List Char} {n : Numeral}

lemma isAmount_of_isTyped (h : Numeral.IsTyped cs n) (hnonneg : 0 ≤ n.toRat)
    (hlt : n.toRat < bound) : Numeral.read? cs = some n.toBinary64 ∧ IsAmount n.toBinary64 := by
  refine ⟨Numeral.read?_of_isTyped h, isAmount_iff.2 ⟨?_, Numeral.toRat_toBinary64_nonneg hnonneg⟩⟩
  rw [Numeral.isFinite_toBinary64_iff h.2.coefficient_lt, abs_of_nonneg hnonneg]
  exact hlt

/-- What is read as an amount is spelled as one, or as what is negative and rounded to zero. -/
lemma exists_isTyped (hread : Numeral.read? cs = some x) (hx : IsAmount x) :
    (∃ n, Numeral.IsTyped cs n ∧ 0 ≤ n.toRat ∧ n.toRat < bound ∧ x = n.toBinary64) ∨
      x.toRat = 0 := by
  obtain ⟨hfinite, hnonneg⟩ := isAmount_iff.1 hx
  obtain ⟨n, hn, rfl⟩ := Numeral.isTyped_of_read? hread hfinite
  rcases lt_or_ge n.toRat 0 with hneg | hpos
  · exact Or.inr (le_antisymm (Numeral.toRat_toBinary64_nonpos hneg) hnonneg)
  · rw [Numeral.isFinite_toBinary64_iff hn.2.coefficient_lt, abs_of_nonneg hpos] at hfinite
    exact Or.inl ⟨n, hn, hpos, hfinite, rfl⟩

lemma number?_of_stands (h : Stands v x) : number? v = some x ∧ IsAmount x := by
  cases h with
  | @whole n h =>
    have hread : Number.toBinary64 (.whole n) = .ok (.ofInt n) := by
      rw [Number.toBinary64_whole, Int.natAbs_natCast, if_pos h]
    obtain ⟨hlarge, -⟩ | ⟨x, hx, hfinite, hnonneg, -⟩ :=
      Number.toBinary64_of_nonneg (a := .whole n) trivial (by simp [Number.toRat])
    · cases hread.symm.trans hlarge
    · cases hread.symm.trans hx
      exact ⟨by rw [number?, hread]; rfl, isAmount_iff.2 ⟨hfinite, hnonneg⟩⟩
  | real h hnonneg => exact ⟨rfl, isAmount_iff.2 ⟨h, hnonneg⟩⟩
  | text h hnonneg hlt => exact isAmount_of_isTyped h hnonneg hlt
  | bytes hascii h hnonneg hlt =>
    rw [number?, hascii, Option.bind_some]
    exact isAmount_of_isTyped h hnonneg hlt

lemma stands_of_number? (hread : number? v = some x) (hx : IsAmount x) :
    (∃ y, Stands v y) ∨ x.toRat = 0 := by
  obtain ⟨hfinite, hnonneg⟩ := isAmount_iff.1 hx
  cases v with
  | number a =>
    cases a with
    | real y =>
      cases hread
      exact Or.inl ⟨x, .real hfinite hnonneg⟩
    | whole k =>
      rw [number?, Number.toBinary64_whole] at hread
      split at hread
      · next hlt =>
        cases hread
        rcases lt_or_ge k 0 with hneg | hpos
        · refine Or.inr (le_antisymm (Binary64.toRat_nonpos ?_) hnonneg)
          rw [Binary64.ofInt, Binary64.isNegative_ofRatio, decide_eq_true hneg]
        · obtain ⟨n, rfl⟩ := Int.eq_ofNat_of_zero_le hpos
          exact Or.inl ⟨_, .whole hlt⟩
      · cases hread
  | text s =>
    obtain ⟨n, hn, hpos, hlt, -⟩ | hzero := exists_isTyped hread hx
    · exact Or.inl ⟨_, .text hn hpos hlt⟩
    · exact Or.inr hzero
  | bytes bs =>
    obtain ⟨cs, hascii, hread⟩ := Option.bind_eq_some_iff.1 hread
    obtain ⟨n, hn, hpos, hlt, -⟩ | hzero := exists_isTyped hread hx
    · exact Or.inl ⟨_, .bytes hascii hn hpos hlt⟩
    · exact Or.inr hzero
  | null => cases hread
  | bool b => cases hread
  | list items => cases hread
  | object fields => cases hread

lemma countsAs_counted (v? : Option Value) : CountsAs v? (counted v?) := by
  obtain ⟨hfinite, hnonneg⟩ := isAmount_iff.1 (isAmount_counted v?)
  refine ⟨hfinite, hnonneg, ?_, fun hnone => ?_⟩
  · rintro v rfl y hy
    obtain ⟨hread, hamount⟩ := number?_of_stands hy
    rw [counted, Option.bind_some, hread, Option.filter_some, if_pos (decide_eq_true hamount)]
    rfl
  · rw [counted]
    cases hx : (v?.bind number?).filter fun x => IsAmount x with
    | none => exact Binary64.toRat_zero false
    | some x =>
      obtain ⟨hread, hamount⟩ := Option.filter_eq_some_iff.1 hx
      obtain ⟨v, rfl, hread⟩ := Option.bind_eq_some_iff.1 hread
      refine (stands_of_number? hread (of_decide_eq_true hamount)).resolve_left ?_
      rintro ⟨y, hy⟩
      exact hnone v rfl y hy

lemma isTooLarge_iff : IsTooLarge v? ↔ ¬ IsCountable v? := by
  constructor
  · rintro ⟨n, rfl, hlarge⟩ hcountable
    obtain ⟨x, hx⟩ := hcountable _ rfl
    rw [Number.toBinary64_whole, if_neg (not_lt.2 hlarge)] at hx
    cases hx
  · intro h
    by_contra hsmall
    refine h fun a ha => ?_
    cases a with
    | real x => exact ⟨x, rfl⟩
    | whole n =>
      refine ⟨.ofInt n, ?_⟩
      rw [Number.toBinary64_whole, if_pos (not_le.1 fun hlarge => hsmall ⟨n, ha, hlarge⟩)]

/-- **The law of amounts.** A value is read as the finite number of zero or more that it stands for,
or else as zero, unless it is a whole number too large for binary64: then reading it overflows. So
do the locked amounts of a value if such a number stands in the place of one of the three, and if
not then all three are read so. -/
theorem any_value_counts_or_overflows (v : Value) :
    (IsTooLarge (some v) → ofValue v = .error .overflow) ∧
    (¬ IsTooLarge (some v) → ∃ x, ofValue v = .ok x ∧ CountsAs (some v) x) ∧
    ((∃ a, IsTooLarge (LockedAmounts.place a v)) →
      LockedAmounts.ofValue v = .error .overflow) ∧
    ((∀ a, ¬ IsTooLarge (LockedAmounts.place a v)) →
      ∃ amounts, LockedAmounts.ofValue v = .ok amounts ∧
        ∀ a, CountsAs (LockedAmounts.place a v) (amounts a)) := by
  refine ⟨fun hlarge => ?_, fun hsmall => ?_, fun hlarge => ?_, fun hsmall => ?_⟩
  · exact ofValue?_of_not_isCountable (isTooLarge_iff.1 hlarge)
  · rw [isTooLarge_iff, not_not] at hsmall
    exact ⟨_, ofValue?_eq hsmall, countsAs_counted (some v)⟩
  · obtain ⟨a, hlarge⟩ := hlarge
    refine LockedAmounts.ofValue_of_not_areCountable fun hcountable => ?_
    exact isTooLarge_iff.1 hlarge (hcountable a)
  · simp only [isTooLarge_iff, not_not] at hsmall
    exact ⟨_, LockedAmounts.ofValue_eq hsmall, fun a => countsAs_counted _⟩

/-- A one with four hundred zeros has no amount, and neither have the locked amounts of a reply that
tells it for one of the assets. -/
theorem large_whole_overflows : ofValue (.number (.whole (10 ^ 400))) = .error .overflow ∧
    LockedAmounts.ofValue
      (.object [("XLM", .number (.whole (10 ^ 400))), ("USDC", .number (.whole 5))])
        = .error .overflow := by
  have hbound : bound ≤ (10 ^ 400 : Int).natAbs := by decide +kernel
  generalize (10 ^ 400 : Int) = n at hbound ⊢
  constructor
  · exact ofValue?_of_not_isCountable (isTooLarge_iff.1 ⟨_, rfl, hbound⟩)
  · refine LockedAmounts.ofValue_of_not_areCountable fun hcountable => ?_
    exact isTooLarge_iff.1 ⟨n, rfl, hbound⟩ (hcountable .xlm)

end Amount

end StellarWallet
