import Mathlib.Algebra.CharP.Two
import Mathlib.Algebra.Field.ZMod
import Mathlib.Data.Nat.BitIndices
import Mathlib.Data.Nat.Bitwise
import Mathlib.RingTheory.AdjoinRoot
import Mathlib.Tactic.ComputeDegree
import StellarWallet.Account.Checksum

/-!
The checksum is a remainder.

The bytes of a string spell a number, and the binary digits of a number are the coefficients of a
polynomial over the field of two elements. Moved up by sixteen powers and divided by the polynomial
of the checksum, that of a byte string leaves the checksum. So the checksum is linear, and a string
with two bytes behind it has the checksum zero just if they spell that of the string.
-/

namespace StellarWallet.Checksum

open Polynomial

/-! ### Numbers as polynomials -/

/-- A number as a polynomial over the field of two elements: its binary digits are the
coefficients. -/
noncomputable def ofDigits (n : ℕ) : (ZMod 2)[X] := ∑ i ∈ n.bitIndices.toFinset, X ^ i

/-- The number that a byte string spells, the first byte being the highest. -/
def number (bs : List UInt8) : ℕ := bs.foldl (fun n b => 2 ^ 8 * n + b.toNat) 0

lemma coeff_ofDigits (n i : ℕ) : (ofDigits n).coeff i = if n.testBit i then 1 else 0 := by
  simp [ofDigits, coeff_X_pow]

lemma ofDigits_injective {m n : ℕ} (h : ofDigits m = ofDigits n) : m = n := by
  refine Nat.eq_of_testBit_eq fun i => ?_
  have hi := congrArg (fun p => p.coeff i) h
  simp only [coeff_ofDigits] at hi
  cases hm : m.testBit i <;> cases hn : n.testBit i <;> simp_all

lemma ofDigits_xor (m n : ℕ) : ofDigits (m ^^^ n) = ofDigits m + ofDigits n := by
  ext i
  rw [coeff_add, coeff_ofDigits, coeff_ofDigits, coeff_ofDigits, Nat.testBit_xor]
  cases m.testBit i <;> cases n.testBit i <;> decide

lemma ofDigits_mul_add {k n : ℕ} (m : ℕ) (h : n < 2 ^ k) :
    ofDigits (2 ^ k * m + n) = ofDigits m * X ^ k + ofDigits n := by
  ext i
  rw [coeff_add, coeff_mul_X_pow', coeff_ofDigits, coeff_ofDigits, coeff_ofDigits,
    Nat.testBit_two_pow_mul_add m h]
  by_cases hi : i < k
  · rw [if_pos hi, if_neg (Nat.not_le.2 hi), zero_add]
  · have hpow : 2 ^ k ≤ 2 ^ i := Nat.pow_le_pow_right (by decide) (Nat.not_lt.1 hi)
    have hn : n.testBit i = false := Nat.testBit_lt_two_pow (h.trans_le hpow)
    rw [if_neg hi, if_pos (Nat.not_lt.1 hi), hn, if_neg Bool.false_ne_true, add_zero]

lemma degree_ofDigits_lt {k n : ℕ} (h : n < 2 ^ k) : (ofDigits n).degree < k := by
  rw [degree_lt_iff_coeff_zero]
  intro i hi
  have hn : n.testBit i = false :=
    Nat.testBit_lt_two_pow (h.trans_le (Nat.pow_le_pow_right (by decide) hi))
  rw [coeff_ofDigits, hn, if_neg Bool.false_ne_true]

lemma ofDigits_zero : ofDigits 0 = 0 := by simp [ofDigits]

lemma ofDigits_one : ofDigits 1 = 1 := by simp [ofDigits]

lemma number_append (bs : List UInt8) (b : UInt8) :
    number (bs ++ [b]) = 2 ^ 8 * number bs + b.toNat := by
  rw [number, List.foldl_append]
  rfl

/-! ### The register -/

/-- The polynomial that a checksum is a remainder by. -/
noncomputable def generator : (ZMod 2)[X] := X ^ 16 + X ^ 12 + X ^ 5 + 1

lemma monic_generator : generator.Monic := by
  unfold generator
  monicity!

lemma degree_generator : generator.degree = 16 := by
  unfold generator
  compute_degree!

lemma ofDigits_polynomial : X ^ 16 + ofDigits polynomial.toNat = generator := by
  have hnumber : polynomial.toNat = 2 ^ 12 * 1 + (2 ^ 5 * 1 + 1) := rfl
  rw [hnumber, ofDigits_mul_add 1 (by decide), ofDigits_mul_add 1 (by decide), ofDigits_one,
    generator]
  ring

/-- A shift multiplies by `X`, and takes the generator away once if a power is too high. -/
lemma ofDigits_shift (r : BitVec 16) :
    ofDigits (shift r).toNat + (if r.msb then generator else 0) = ofDigits r.toNat * X := by
  have hdouble : ofDigits r.toNat * X = ofDigits (2 * r.toNat) := by
    have h := ofDigits_mul_add (k := 1) (n := 0) r.toNat (by decide)
    rw [ofDigits_zero, add_zero, add_zero, pow_one, pow_one] at h
    exact h.symm
  have hmoved : (r <<< 1).toNat = 2 * r.toNat % 2 ^ 16 := by
    rw [BitVec.toNat_shiftLeft, Nat.shiftLeft_eq, Nat.mul_comm, pow_one]
  have hlt := (r <<< 1).isLt
  rw [hdouble, shift]
  cases hmsb : r.msb with
  | true =>
    have hlow := BitVec.le_toNat_of_msb_true hmsb
    have hhigh := r.isLt
    have hcarry : 2 * r.toNat = 2 ^ 16 * 1 + (r <<< 1).toNat := by omega
    rw [if_pos rfl, if_pos rfl, hcarry, ofDigits_mul_add 1 hlt, ofDigits_one, BitVec.toNat_xor,
      ofDigits_xor, ← ofDigits_polynomial]
    linear_combination CharTwo.add_self_eq_zero (ofDigits polynomial.toNat)
  | false =>
    have hlow := BitVec.toNat_lt_of_msb_false hmsb
    have hcarry : 2 * r.toNat = (r <<< 1).toNat := by omega
    rw [if_neg Bool.false_ne_true, if_neg Bool.false_ne_true, add_zero, hcarry]

/-! ### Bytes

Congruence by the generator is equality in the ring where the generator is zero. -/

/-- A number as a polynomial, up to multiples of the generator. -/
noncomputable def residue (n : ℕ) : AdjoinRoot generator := AdjoinRoot.mk generator (ofDigits n)

/-- What `X` is up to multiples of the generator. -/
noncomputable abbrev root : AdjoinRoot generator := AdjoinRoot.root generator

lemma residue_zero : residue 0 = 0 := by rw [residue, ofDigits_zero, map_zero]

lemma residue_mul_add {k n : ℕ} (m : ℕ) (h : n < 2 ^ k) :
    residue (2 ^ k * m + n) = residue m * root ^ k + residue n := by
  rw [residue, ofDigits_mul_add m h, map_add, map_mul, map_pow, AdjoinRoot.mk_X]
  rfl

lemma residue_xor (m n : ℕ) : residue (m ^^^ n) = residue m + residue n := by
  rw [residue, ofDigits_xor, map_add]
  rfl

lemma residue_shift (r : BitVec 16) : residue (shift r).toNat = residue r.toNat * root := by
  have h := congrArg (AdjoinRoot.mk generator) (ofDigits_shift r)
  have hzero : AdjoinRoot.mk generator (if r.msb then generator else 0) = 0 := by
    cases r.msb with
    | true => exact AdjoinRoot.mk_self
    | false => exact map_zero _
  rw [map_add, map_mul, hzero, add_zero, AdjoinRoot.mk_X] at h
  exact h

lemma residue_shifts (n : ℕ) (r : BitVec 16) :
    residue (shifts n r).toNat = residue r.toNat * root ^ n := by
  induction n generalizing r with
  | zero => rw [shifts, pow_zero, mul_one]
  | succ n ih => rw [shifts, ih, residue_shift, pow_succ']; ring

lemma residue_absorb (r : BitVec 16) (b : UInt8) :
    residue (absorb r b).toNat = residue r.toNat * root ^ 8 + residue b.toNat * root ^ 16 := by
  have hbyte : (b.toBitVec.setWidth 16 <<< 8).toNat = 2 ^ 8 * b.toNat + 0 := by
    have hb := b.toNat_lt
    rw [BitVec.toNat_shiftLeft, BitVec.toNat_setWidth, Nat.shiftLeft_eq]
    change b.toNat % 2 ^ 16 * 2 ^ 8 % 2 ^ 16 = _
    omega
  rw [absorb, residue_shifts, BitVec.toNat_xor, residue_xor, hbyte, residue_mul_add _ (by decide),
    residue_zero]
  ring

lemma residue_ofBytes (bs : List UInt8) :
    residue (ofBytes bs).toNat = residue (number bs) * root ^ 16 := by
  -- On the bytes from the end, where the next one is taken into the register.
  induction bs using List.reverseRecOn with
  | nil =>
    change residue 0 = residue 0 * _
    rw [residue_zero, zero_mul]
  | append_singleton bs b ih =>
    rw [ofBytes_append, List.foldl_cons, List.foldl_nil, residue_absorb, ih, number_append,
      residue_mul_add _ b.toNat_lt]
    ring

lemma eq_of_residue {m n : ℕ} (hm : m < 2 ^ 16) (hn : n < 2 ^ 16) (h : residue m = residue n) :
    m = n := by
  have hdvd : generator ∣ ofDigits m - ofDigits n := AdjoinRoot.mk_eq_mk.1 h
  have hsmall {k : ℕ} (hk : k < 2 ^ 16) : ofDigits k %ₘ generator = ofDigits k := by
    rw [modByMonic_eq_self_iff monic_generator, degree_generator]
    exact degree_ofDigits_lt hk
  have hmod := modByMonic_eq_of_dvd_sub monic_generator hdvd
  rw [hsmall hm, hsmall hn] at hmod
  exact ofDigits_injective hmod

lemma ofDigits_ofBytes (bs : List UInt8) :
    ofDigits (ofBytes bs).toNat = (ofDigits (number bs) * X ^ 16) %ₘ generator := by
  have hsmall : (ofDigits (ofBytes bs).toNat).degree < generator.degree := by
    rw [degree_generator]
    exact degree_ofDigits_lt (ofBytes bs).isLt
  have hresidue : AdjoinRoot.mk generator (ofDigits (ofBytes bs).toNat)
      = AdjoinRoot.mk generator (ofDigits (number bs) * X ^ 16) := by
    rw [map_mul, map_pow, AdjoinRoot.mk_X]
    exact residue_ofBytes bs
  rw [← (modByMonic_eq_self_iff monic_generator).2 hsmall]
  exact modByMonic_eq_of_dvd_sub monic_generator (AdjoinRoot.mk_eq_mk.1 hresidue)

/-! ### What follows -/

lemma xor_mul_add {k a b : ℕ} (m n : ℕ) (ha : a < 2 ^ k) (hb : b < 2 ^ k) :
    (2 ^ k * m + a) ^^^ (2 ^ k * n + b) = 2 ^ k * (m ^^^ n) + (a ^^^ b) := by
  refine Nat.eq_of_testBit_eq fun i => ?_
  rw [Nat.testBit_xor, Nat.testBit_two_pow_mul_add m ha, Nat.testBit_two_pow_mul_add n hb,
    Nat.testBit_two_pow_mul_add _ (Nat.xor_lt_two_pow ha hb)]
  split <;> rw [Nat.testBit_xor]

lemma number_zipWith_xor {bs cs : List UInt8} (h : bs.length = cs.length) :
    number (bs.zipWith (· ^^^ ·) cs) = number bs ^^^ number cs := by
  have hfold : ∀ m n, (bs.zipWith (· ^^^ ·) cs).foldl (fun n b => 2 ^ 8 * n + b.toNat) (m ^^^ n)
      = bs.foldl (fun n b => 2 ^ 8 * n + b.toNat) m
        ^^^ cs.foldl (fun n b => 2 ^ 8 * n + b.toNat) n := by
    induction bs generalizing cs with
    | nil =>
      obtain rfl : cs = [] := List.length_eq_zero_iff.1 h.symm
      exact fun m n => rfl
    | cons b bs ih =>
      cases cs with
      | nil => cases h
      | cons c cs =>
        intro m n
        rw [List.zipWith_cons_cons, List.foldl_cons, List.foldl_cons, List.foldl_cons,
          UInt8.toNat_xor, ← xor_mul_add m n b.toNat_lt c.toNat_lt, ih (Nat.succ.inj h)]
  exact hfold 0 0

lemma ofBytes_zipWith_xor {bs cs : List UInt8} (h : bs.length = cs.length) :
    ofBytes (bs.zipWith (· ^^^ ·) cs) = ofBytes bs ^^^ ofBytes cs := by
  refine BitVec.eq_of_toNat_eq (eq_of_residue (BitVec.isLt _) (BitVec.isLt _) ?_)
  rw [residue_ofBytes, number_zipWith_xor h, BitVec.toNat_xor, residue_xor, residue_xor,
    residue_ofBytes, residue_ofBytes, add_mul]

/-- The generator has a constant term, so that `X` can be cancelled. -/
lemma isUnit_root : IsUnit root := by
  have h : root * (root ^ 15 + root ^ 11 + root ^ 4) + 1 = 0 := by
    have hself : AdjoinRoot.mk generator generator = 0 := AdjoinRoot.mk_self
    change AdjoinRoot.mk generator (X ^ 16 + X ^ 12 + X ^ 5 + 1) = 0 at hself
    simp only [map_add, map_pow, map_one, AdjoinRoot.mk_X] at hself
    linear_combination hself
  exact IsUnit.of_mul_eq_one (-(root ^ 15 + root ^ 11 + root ^ 4)) (by linear_combination -h)

lemma ofBytes_append_eq_zero_iff (bs : List UInt8) (hi lo : UInt8) :
    ofBytes (bs ++ [hi, lo]) = 0 ↔ 256 * hi.toNat + lo.toNat = (ofBytes bs).toNat := by
  have hhi := hi.toNat_lt
  have hlo := lo.toNat_lt
  have hsum : 256 * hi.toNat + lo.toNat < 2 ^ 16 := by omega
  have hnumber : number (bs ++ [hi, lo])
      = 2 ^ 16 * number bs + (256 * hi.toNat + lo.toNat) := by
    rw [← List.singleton_append, ← List.append_assoc, number_append, number_append]
    ring
  have hresidue : residue (ofBytes (bs ++ [hi, lo])).toNat
      = residue ((ofBytes bs).toNat ^^^ (256 * hi.toNat + lo.toNat)) * root ^ 16 := by
    rw [residue_ofBytes, hnumber, residue_mul_add _ hsum, residue_xor, residue_ofBytes]
  constructor
  · intro h
    rw [h] at hresidue
    have hcancel : residue ((ofBytes bs).toNat ^^^ (256 * hi.toNat + lo.toNat)) = residue 0 := by
      rw [residue_zero]
      exact (isUnit_root.pow 16).mul_left_eq_zero.1 (hresidue.symm.trans residue_zero)
    have hxor := eq_of_residue (Nat.xor_lt_two_pow (BitVec.isLt _) hsum) (by decide) hcancel
    exact (Nat.xor_eq_zero_iff.1 hxor).symm
  · intro h
    rw [h, Nat.xor_self, residue_zero, zero_mul, ← residue_zero] at hresidue
    exact BitVec.eq_of_toNat_eq (eq_of_residue (BitVec.isLt _) (by decide) hresidue)

/-- **The checksum is a remainder.** It has sixteen bits, which are the coefficients of what the
polynomial of the byte string leaves when it is moved up by sixteen powers and divided. So it is
linear, and two bytes behind a string make the checksum zero just if they spell that of the
string. -/
theorem ofBytes_isRemainder :
    (∀ bs, (ofBytes bs).toNat < 2 ^ 16 ∧ ofDigits (ofBytes bs).toNat
      = (ofDigits (number bs) * X ^ 16) %ₘ (X ^ 16 + X ^ 12 + X ^ 5 + 1)) ∧
    (∀ bs cs, bs.length = cs.length →
      ofBytes (bs.zipWith (· ^^^ ·) cs) = ofBytes bs ^^^ ofBytes cs) ∧
    ∀ bs hi lo, ofBytes (bs ++ [hi, lo]) = 0 ↔ 256 * hi.toNat + lo.toNat = (ofBytes bs).toNat :=
  ⟨fun bs => ⟨(ofBytes bs).isLt, ofDigits_ofBytes bs⟩, fun _ _ => ofBytes_zipWith_xor,
    ofBytes_append_eq_zero_iff⟩

/-- Two texts of nine characters, and the one that both differ in. -/
theorem ofBytes_of_two_texts :
    let digits : List UInt8 := [0x31, 0x32, 0x33, 0x34, 0x35, 0x36, 0x37, 0x38, 0x39]
    let letters : List UInt8 := [0x61, 0x62, 0x63, 0x64, 0x65, 0x66, 0x67, 0x68, 0x69]
    digits.length = letters.length ∧ ofBytes digits = 0x31C3 ∧
      ofBytes (List.replicate 9 0x50) = 0x31C3 ^^^ ofBytes letters := by
  intro digits letters
  have hlength : digits.length = letters.length := rfl
  have hdigits : ofBytes digits = 0x31C3 := by decide +kernel
  refine ⟨hlength, hdigits, ?_⟩
  rw [← hdigits]
  exact ofBytes_isRemainder.2.1 digits letters hlength

end StellarWallet.Checksum
