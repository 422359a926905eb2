/-!
Base32 text: five bits a character, in groups of eight characters, padded with `=`.

`decode` drops the bits that do not fill a byte, whatever they are, and accepts the paddings that
leave a whole number of bytes.
-/

namespace StellarWallet.Base32

def padding : Char := '='

/-- The value of a character: the capital letters, then the digits from `2` to `7`. -/
def value? (c : Char) : Option Nat :=
  if 'A' ≤ c ∧ c ≤ 'Z' then some (c.toNat - 'A'.toNat)
  else if '2' ≤ c ∧ c ≤ '7' then some (c.toNat - '2'.toNat + 26)
  else none

/-- The character of a value below 32. -/
def digit (n : Nat) : Char :=
  if n < 26 then Char.ofNat ('A'.toNat + n) else Char.ofNat ('2'.toNat + (n - 26))

/-- The lowest `width` bits of a number, the most significant first. -/
def bits (width n : Nat) : List Bool := (List.range width).map fun i => n.testBit (width - 1 - i)

/-- The number of a list of bits. -/
def ofBits (bs : List Bool) : Nat := bs.foldl (fun n b => 2 * n + b.toNat) 0

/-- Whole bytes from a list of bits; bits that do not fill a byte are dropped. -/
def bytes : List Bool → List UInt8
  | a :: b :: c :: d :: e :: f :: g :: h :: r =>
    UInt8.ofNat (ofBits [a, b, c, d, e, f, g, h]) :: bytes r
  | _ => []

/-- Paddings of the last group that end at a byte. -/
def paddingCounts : List Nat := [0, 1, 3, 4, 6]

/-- The bytes of a base32 text. -/
def decode (cs : List Char) : Option (List UInt8) :=
  let body := (cs.reverse.dropWhile (· = padding)).reverse
  if cs.length % 8 = 0 ∧ cs.length - body.length ∈ paddingCounts then
    (body.mapM value?).map fun ns => bytes (ns.flatMap (bits 5))
  else none

/-- Characters from bits, the last one filled up with zeros. -/
def digits : List Bool → List Char
  | a :: b :: c :: d :: e :: r => digit (ofBits [a, b, c, d, e]) :: digits r
  | [] => []
  | rest => [digit (ofBits (rest ++ List.replicate (5 - rest.length) false))]

/-- The base32 text of bytes. -/
def encode (bs : List UInt8) : List Char :=
  let ds := digits (bs.flatMap fun b => bits 8 b.toNat)
  ds ++ List.replicate ((8 - ds.length % 8) % 8) padding

end StellarWallet.Base32
