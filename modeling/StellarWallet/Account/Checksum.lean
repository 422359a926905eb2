/-!
The checksum of an account key: the 16-bit cyclic redundancy check with the polynomial
`x^16 + x^12 + x^5 + 1`, the most significant bit of each byte first, and the register empty at
the start.
-/

namespace StellarWallet.Checksum

/-- The polynomial without its leading term. -/
def polynomial : BitVec 16 := 0x1021

/-- Multiplies the register by `x` and reduces it. -/
def shift (r : BitVec 16) : BitVec 16 :=
  if r.msb then (r <<< 1) ^^^ polynomial else r <<< 1

def shifts : Nat → BitVec 16 → BitVec 16
  | 0, r => r
  | n + 1, r => shifts n (shift r)

/-- Takes a byte into the register. -/
def absorb (r : BitVec 16) (b : UInt8) : BitVec 16 :=
  shifts 8 (r ^^^ (b.toBitVec.setWidth 16 <<< 8))

/-- The checksum of a byte string. -/
def ofBytes (bs : List UInt8) : BitVec 16 := bs.foldl absorb 0

@[simp] theorem ofBytes_nil : ofBytes [] = 0 := rfl

theorem ofBytes_append (bs cs : List UInt8) :
    ofBytes (bs ++ cs) = cs.foldl absorb (ofBytes bs) := by
  simp [ofBytes]

/-- The low byte, then the high byte. -/
def littleEndian (r : BitVec 16) : List UInt8 :=
  [UInt8.ofNat (r.toNat % 256), UInt8.ofNat (r.toNat / 256)]

/-- The checksum that two bytes hold, the low byte first. -/
def ofLittleEndian : List UInt8 → Nat
  | [] => 0
  | b :: r => b.toNat + 256 * ofLittleEndian r

end StellarWallet.Checksum
