import StellarWallet.Text.Utf8

/-!
Percent-encoded segments of a link.

`encode` leaves letters, digits and four marks as they are and writes every other byte of the UTF-8
form as an escape of two capital digits; `decode` reads a segment back.
-/

namespace StellarWallet.Percent

/-- A byte that a segment shows as a character. -/
def isPlain (b : UInt8) : Bool :=
  let c := Char.ofNat b.toNat
  b.toNat < 128 && (c.isAlphanum || c = '_' || c = '.' || c = '-' || c = '~')

/-- A capital hexadecimal digit. -/
def hexDigit (n : Nat) : Char := (Nat.digitChar n).toUpper

/-- One byte of a segment. -/
def encodeByte (b : UInt8) : List Char :=
  if isPlain b then [Char.ofNat b.toNat]
  else ['%', hexDigit (b.toNat / 16), hexDigit (b.toNat % 16)]

/-- A text as one segment of a link. -/
def encode (cs : List Char) : List Char := (Utf8.encode cs).flatMap encodeByte

def hexValue? (c : Char) : Option Nat :=
  if '0' ≤ c ∧ c ≤ '9' then some (c.toNat - '0'.toNat)
  else if 'A' ≤ c ∧ c ≤ 'F' then some (c.toNat - 'A'.toNat + 10)
  else none

/-- The bytes of a segment. -/
def decodeBytes : List Char → Option (List UInt8)
  | [] => some []
  | '%' :: a :: b :: r => do
    let n ← hexValue? a
    let m ← hexValue? b
    return UInt8.ofNat (16 * n + m) :: (← decodeBytes r)
  | c :: r =>
    if c.toNat < 128 then (decodeBytes r).map (UInt8.ofNat c.toNat :: ·) else none

/-- The text of a segment. -/
def decode (cs : List Char) : Option (List Char) := (decodeBytes cs).bind Utf8.decode

end StellarWallet.Percent
