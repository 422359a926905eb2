import Mathlib.Tactic.Common
import StellarWallet.Account.Checksum
import StellarWallet.Proofs.Account.Base32

/-!
The register of the checksum, bit by bit.

Bytes go into the register one bit after the other, the most significant first. Taking a bit is
linear and loses nothing that is in the register; up to sixteen bits only move through it, so that
no two such strings of bits leave it in the same state.
-/

namespace StellarWallet.Checksum

open Base32 (bits ofBits)

/-! ### Shifts -/

lemma shift_xor (r s : BitVec 16) : shift (r ^^^ s) = shift r ^^^ shift s := by
  have hmove : r <<< 1 ^^^ s <<< 1 ^^^ polynomial = r <<< 1 ^^^ polynomial ^^^ s <<< 1 := by
    rw [BitVec.xor_assoc, BitVec.xor_comm (s <<< 1), ← BitVec.xor_assoc]
  have hcancel : r <<< 1 ^^^ polynomial ^^^ (s <<< 1 ^^^ polynomial) = r <<< 1 ^^^ s <<< 1 := by
    rw [← BitVec.xor_assoc, ← hmove, BitVec.xor_assoc, BitVec.xor_self, BitVec.xor_zero]
  unfold shift
  rw [BitVec.msb_xor, BitVec.shiftLeft_xor_distrib]
  cases r.msb <;> cases s.msb
  · rfl
  · exact BitVec.xor_assoc _ _ _
  · exact hmove
  · exact hcancel.symm

/-- The polynomial has a constant term, so a shift loses nothing. -/
lemma eq_zero_of_shift {r : BitVec 16} (h : shift r = 0) : r = 0 := by
  unfold shift at h
  cases hmsb : r.msb with
  | true =>
    rw [hmsb, if_pos rfl] at h
    have hlow := congrArg (fun s : BitVec 16 => s.getLsbD 0) h
    simp [polynomial] at hlow
  | false =>
    rw [hmsb, if_neg Bool.false_ne_true] at h
    have hr := congrArg BitVec.toNat h
    rw [BitVec.toNat_shiftLeft, Nat.shiftLeft_eq] at hr
    have hlt := BitVec.toNat_lt_of_msb_false hmsb
    refine BitVec.eq_of_toNat_eq ?_
    change _ % 2 ^ 16 = 0 at hr
    change r.toNat < 2 ^ 15 at hlt
    change r.toNat = 0
    omega

lemma shift_injective {r s : BitVec 16} (h : shift r = shift s) : r = s := by
  rw [← BitVec.xor_eq_zero_iff, ← shift_xor] at h
  exact BitVec.xor_eq_zero_iff.1 (eq_zero_of_shift h)

lemma shifts_injective (n : Nat) {r s : BitVec 16} (h : shifts n r = shifts n s) : r = s := by
  induction n generalizing r s with
  | zero => exact h
  | succ n ih => exact shift_injective (ih h)

lemma shift_ushiftRight {r : BitVec 16} (h : r.getLsbD 0 = false) : shift (r >>> 1) = r := by
  have hmsb : (r >>> 1).msb = false := by simp [BitVec.msb_ushiftRight]
  rw [shift, hmsb, if_neg Bool.false_ne_true]
  refine BitVec.eq_of_getLsbD_eq fun i hi => ?_
  rw [BitVec.getLsbD_shiftLeft, BitVec.getLsbD_ushiftRight]
  cases i with
  | zero => simpa using h.symm
  | succ i => simp [hi, Nat.add_comm 1 i]

/-! ### Bits -/

/-- A bit in the highest place of the register. -/
def top (b : Bool) : BitVec 16 := if b then 0x8000 else 0

/-- Takes a bit into the register. -/
def feed (r : BitVec 16) (b : Bool) : BitVec 16 := shift (r ^^^ top b)

/-- Takes some bits into the register. -/
def feedAll (r : BitVec 16) (bs : List Bool) : BitVec 16 := bs.foldl feed r

lemma feedAll_cons (r : BitVec 16) (b : Bool) (bs : List Bool) :
    feedAll r (b :: bs) = feedAll (feed r b) bs := rfl

lemma feedAll_append (r : BitVec 16) (as bs : List Bool) :
    feedAll r (as ++ bs) = feedAll (feedAll r as) bs := List.foldl_append

lemma top_xor (a b : Bool) : top (a ^^ b) = top a ^^^ top b := by
  cases a <;> cases b <;> rfl

lemma feed_xor (r s : BitVec 16) (a b : Bool) :
    feed (r ^^^ s) (a ^^ b) = feed r a ^^^ feed s b := by
  have hmove : r ^^^ s ^^^ (top a ^^^ top b) = r ^^^ top a ^^^ (s ^^^ top b) := by
    rw [BitVec.xor_assoc, BitVec.xor_assoc, ← BitVec.xor_assoc s, BitVec.xor_comm s,
      BitVec.xor_assoc]
  rw [feed, feed, feed, top_xor, hmove, shift_xor]

/-- Taking bits is linear in the register and the bits together. -/
lemma feedAll_xor (r s : BitVec 16) {as bs : List Bool} (h : as.length = bs.length) :
    feedAll (r ^^^ s) (as.zipWith (· ^^ ·) bs) = feedAll r as ^^^ feedAll s bs := by
  induction as generalizing r s bs with
  | nil =>
    obtain rfl : bs = [] := List.length_eq_zero_iff.1 h.symm
    rfl
  | cons a as ih =>
    cases bs with
    | nil => cases h
    | cons b bs =>
      rw [List.zipWith_cons_cons, feedAll_cons, feedAll_cons, feedAll_cons, feed_xor,
        ih _ _ (Nat.succ.inj h)]

/-- Bits that follow do not make up for a difference. -/
lemma feedAll_injective {r s : BitVec 16} (bs : List Bool) (h : feedAll r bs = feedAll s bs) :
    r = s := by
  induction bs generalizing r s with
  | nil => exact h
  | cons b bs ih =>
    have hfeed : r ^^^ top b = s ^^^ top b := shift_injective (ih h)
    exact (BitVec.xor_left_inj (top b)).1 hfeed

/-- Some bits at the top of an empty register. -/
def aligned : List Bool → BitVec 16
  | [] => 0
  | b :: bs => top b ^^^ aligned bs >>> 1

lemma getLsbD_aligned {bs : List Bool} {i : Nat} (h : i + bs.length < 16) :
    (aligned bs).getLsbD i = false := by
  induction bs generalizing i with
  | nil => exact BitVec.getLsbD_zero
  | cons b bs ih =>
    rw [List.length_cons] at h
    have htop : (top b).getLsbD i = false := by
      cases b with
      | false => exact BitVec.getLsbD_zero
      | true =>
        have hall : ∀ i < 15, (top true).getLsbD i = false := by decide
        exact hall i (by omega)
    rw [aligned, BitVec.getLsbD_xor, htop, BitVec.getLsbD_ushiftRight, ih (by omega),
      Bool.xor_false]

/-- No more than sixteen bits go through the register as if they had been there from the start. -/
lemma feedAll_eq_shifts {bs : List Bool} (h : bs.length ≤ 16) (r : BitVec 16) :
    feedAll r bs = shifts bs.length (r ^^^ aligned bs) := by
  induction bs generalizing r with
  | nil => exact (BitVec.xor_zero).symm
  | cons b bs ih =>
    rw [List.length_cons] at h
    have hlow : (aligned bs).getLsbD 0 = false := getLsbD_aligned (by omega)
    rw [feedAll_cons, ih (by omega), List.length_cons, shifts, aligned, ← BitVec.xor_assoc,
      shift_xor, shift_ushiftRight hlow, feed]

lemma aligned_injective {as bs : List Bool} (hlen : as.length = bs.length) (h16 : as.length ≤ 16)
    (h : aligned as = aligned bs) : as = bs := by
  induction as generalizing bs with
  | nil => exact (List.length_eq_zero_iff.1 hlen.symm).symm
  | cons a as ih =>
    cases bs with
    | nil => cases hlen
    | cons b bs =>
      rw [List.length_cons] at h16
      have hlen' : as.length = bs.length := Nat.succ.inj hlen
      have hmsb : ∀ (c : Bool) (cs : List Bool), (aligned (c :: cs)).msb = c := by
        intro c cs
        rw [aligned, BitVec.msb_xor, BitVec.msb_ushiftRight]
        cases c <;> rfl
      obtain rfl : a = b := by rw [← hmsb a as, h, hmsb]
      have hrest : aligned as >>> 1 = aligned bs >>> 1 := (BitVec.xor_right_inj (top a)).1 h
      have hshift := congrArg shift hrest
      rw [shift_ushiftRight (getLsbD_aligned (by omega)),
        shift_ushiftRight (getLsbD_aligned (by omega))] at hshift
      rw [ih hlen' (by omega) hshift]

/-- **Short bursts show.** No two strings of the same length, up to sixteen bits, take the register
to the same state. -/
theorem feedAll_burst {as bs : List Bool} (hlen : as.length = bs.length) (h16 : as.length ≤ 16)
    (r : BitVec 16) (h : feedAll r as = feedAll r bs) : as = bs := by
  rw [feedAll_eq_shifts h16, feedAll_eq_shifts (hlen ▸ h16), ← hlen] at h
  exact aligned_injective hlen h16 ((BitVec.xor_right_inj r).1 (shifts_injective _ h))

/-! ### Bytes -/

lemma absorb_eq_feedAll (r : BitVec 16) (b : UInt8) : absorb r b = feedAll r (bits 8 b.toNat) := by
  have haligned : ∀ n < 256, aligned (bits 8 n) = (BitVec.ofNat 16 n) <<< 8 := by decide +kernel
  have hbyte : b.toBitVec.setWidth 16 = BitVec.ofNat 16 b.toNat := by
    refine BitVec.eq_of_toNat_eq ?_
    rw [BitVec.toNat_setWidth, BitVec.toNat_ofNat]
    rfl
  rw [feedAll_eq_shifts (by simp), Base32.length_bits, haligned _ b.toNat_lt, absorb, hbyte]

/-- The checksum of a byte string is what its bits leave in an empty register. -/
theorem ofBytes_eq_feedAll (bs : List UInt8) :
    ofBytes bs = feedAll 0 (bs.flatMap fun b => bits 8 b.toNat) := by
  have hfold : ∀ r, bs.foldl absorb r = feedAll r (bs.flatMap fun b => bits 8 b.toNat) := by
    induction bs with
    | nil => exact fun r => rfl
    | cons b bs ih =>
      intro r
      rw [List.foldl_cons, List.flatMap_cons, feedAll_append, absorb_eq_feedAll, ih]
  exact hfold 0

end StellarWallet.Checksum
