/-!
UTF-8.

`decode` accepts exactly the shortest encodings of characters: no surrogates, nothing above
`0x10FFFF`, no bytes left over.
-/

namespace StellarWallet.Utf8

def byte (n : Nat) : UInt8 := UInt8.ofNat n

/-- The bytes of one character. -/
def encodeChar (c : Char) : List UInt8 :=
  let n := c.toNat
  if n < 0x80 then [byte n]
  else if n < 0x800 then [byte (0xC0 + n / 64), byte (0x80 + n % 64)]
  else if n < 0x10000 then
    [byte (0xE0 + n / 4096), byte (0x80 + n / 64 % 64), byte (0x80 + n % 64)]
  else
    [byte (0xF0 + n / 262144), byte (0x80 + n / 4096 % 64), byte (0x80 + n / 64 % 64),
      byte (0x80 + n % 64)]

def encode (cs : List Char) : List UInt8 := cs.flatMap encodeChar

/-- The six bits of a byte that continues a character. -/
def tail? (b : UInt8) : Option Nat :=
  if 0x80 ≤ b.toNat ∧ b.toNat < 0xC0 then some (b.toNat - 0x80) else none

/-- The character of a code point that needs at least `least` to be written this long. -/
def charFrom? (least n : Nat) : Option Char :=
  if least ≤ n ∧ n.isValidChar then some (Char.ofNat n) else none

/-- The characters of a byte string. -/
def decode : List UInt8 → Option (List Char)
  | [] => some []
  | a :: r =>
    let n := a.toNat
    if n < 0x80 then (decode r).map (Char.ofNat n :: ·)
    else if 0xC0 ≤ n ∧ n < 0xE0 then
      match r with
      | b :: r => do
        let c ← charFrom? 0x80 ((n - 0xC0) * 64 + (← tail? b))
        return c :: (← decode r)
      | [] => none
    else if 0xE0 ≤ n ∧ n < 0xF0 then
      match r with
      | b :: c :: r => do
        let c ← charFrom? 0x800 ((n - 0xE0) * 4096 + (← tail? b) * 64 + (← tail? c))
        return c :: (← decode r)
      | _ => none
    else if 0xF0 ≤ n ∧ n < 0xF8 then
      match r with
      | b :: c :: d :: r => do
        let c ← charFrom? 0x10000
          ((n - 0xF0) * 262144 + (← tail? b) * 4096 + (← tail? c) * 64 + (← tail? d))
        return c :: (← decode r)
      | _ => none
    else none

end StellarWallet.Utf8
