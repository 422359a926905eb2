import Mathlib.Tactic.Common
import StellarWallet.Text.Utf8

/-!
Every text is read back from its UTF-8 form.

A character is written as one to four bytes, and each length is read by its own first byte, so that
the bytes of a text lead back to its characters one by one.
-/

namespace StellarWallet.Utf8

lemma byte_toNat {n : Nat} (h : n < 256) : (byte n).toNat = n := Nat.mod_eq_of_lt h

lemma toNat_lt (c : Char) : c.toNat < 0x110000 := by
  rcases c.valid with h | ⟨-, h⟩
  · exact Nat.lt_trans h (by decide)
  · exact h

lemma tail?_byte {n : Nat} (h : n < 64) : tail? (byte (0x80 + n)) = some n := by
  have hbyte : (byte (0x80 + n)).toNat = 0x80 + n := byte_toNat (by omega)
  rw [tail?, hbyte, if_pos (by omega), Nat.add_sub_cancel_left]

lemma charFrom?_toNat {c : Char} {least n : Nat} (hleast : least ≤ c.toNat) (hn : n = c.toNat) :
    charFrom? least n = some c := by
  subst hn
  have hvalid : c.toNat.isValidChar := c.valid
  rw [charFrom?, if_pos ⟨hleast, hvalid⟩, Char.ofNat_toNat]

section

variable {c : Char} {n d e f : Nat} {bs : List UInt8}

lemma decode_one (hn : n < 0x80) : decode (byte n :: bs) = (decode bs).map (Char.ofNat n :: ·) := by
  have hbyte : (byte n).toNat = n := byte_toNat (by omega)
  rw [decode.eq_def]
  simp only [hbyte, if_pos hn]

lemma decode_two (hn : n < 32) (hd : d < 64) (hc : charFrom? 0x80 (n * 64 + d) = some c) :
    decode (byte (0xC0 + n) :: byte (0x80 + d) :: bs) = (decode bs).map (c :: ·) := by
  have hfirst : (byte (0xC0 + n)).toNat = 0xC0 + n := byte_toNat (by omega)
  rw [decode.eq_def]
  dsimp only
  rw [hfirst, if_neg (by omega), if_pos (by omega), Nat.add_sub_cancel_left, tail?_byte hd,
    Option.bind_eq_bind, Option.bind_some, hc]
  cases decode bs <;> rfl

lemma decode_three (hn : n < 16) (hd : d < 64) (he : e < 64)
    (hc : charFrom? 0x800 (n * 4096 + d * 64 + e) = some c) :
    decode (byte (0xE0 + n) :: byte (0x80 + d) :: byte (0x80 + e) :: bs)
      = (decode bs).map (c :: ·) := by
  have hfirst : (byte (0xE0 + n)).toNat = 0xE0 + n := byte_toNat (by omega)
  rw [decode.eq_def]
  dsimp only
  rw [hfirst, if_neg (by omega), if_neg (by omega), if_pos (by omega), Nat.add_sub_cancel_left,
    tail?_byte hd, tail?_byte he, Option.bind_eq_bind, Option.bind_some, Option.bind_some, hc]
  cases decode bs <;> rfl

lemma decode_four (hn : n < 8) (hd : d < 64) (he : e < 64) (hf : f < 64)
    (hc : charFrom? 0x10000 (n * 262144 + d * 4096 + e * 64 + f) = some c) :
    decode (byte (0xF0 + n) :: byte (0x80 + d) :: byte (0x80 + e) :: byte (0x80 + f) :: bs)
      = (decode bs).map (c :: ·) := by
  have hfirst : (byte (0xF0 + n)).toNat = 0xF0 + n := byte_toNat (by omega)
  rw [decode.eq_def]
  dsimp only
  rw [hfirst, if_neg (by omega), if_neg (by omega), if_neg (by omega), if_pos (by omega),
    Nat.add_sub_cancel_left, tail?_byte hd, tail?_byte he, tail?_byte hf, Option.bind_eq_bind,
    Option.bind_some, Option.bind_some, Option.bind_some, hc]
  cases decode bs <;> rfl

end

/-- The bytes of a character lead to the character and what follows them. -/
lemma decode_encodeChar (c : Char) (bs : List UInt8) :
    decode (encodeChar c ++ bs) = (decode bs).map (c :: ·) := by
  have hlt : c.toNat < 0x110000 := toNat_lt c
  unfold encodeChar
  dsimp only
  split
  · next h =>
    have hone : decode (byte c.toNat :: bs) = (decode bs).map (Char.ofNat c.toNat :: ·) :=
      decode_one h
    rwa [Char.ofNat_toNat] at hone
  split
  · exact decode_two (by omega) (by omega) (charFrom?_toNat (by omega) (by omega))
  split
  · exact decode_three (by omega) (by omega) (by omega) (charFrom?_toNat (by omega) (by omega))
  · exact decode_four (by omega) (by omega) (by omega) (by omega)
      (charFrom?_toNat (by omega) (by omega))

/-- Every text is read back from its bytes. -/
theorem decode_encode (cs : List Char) : decode (encode cs) = some cs := by
  induction cs with
  | nil => rfl
  | cons c r ih =>
    have hcons : encode (c :: r) = encodeChar c ++ encode r := List.flatMap_cons
    rw [hcons, decode_encodeChar, ih, Option.map_some]

end StellarWallet.Utf8
