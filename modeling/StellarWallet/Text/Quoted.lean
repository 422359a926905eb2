import StellarWallet.Text.Printable

/-!
Texts in quotes, as messages show them: single quotes unless the text has one and no double quote;
the quote, the backslash and what is not printable are escaped.
-/

namespace StellarWallet.Text

/-- `n` in base sixteen with at least `width` digits. -/
def hexPadded (width n : Nat) : List Char :=
  let ds := Nat.toDigits 16 n
  List.replicate (width - ds.length) '0' ++ ds

/-- One character inside quotes `q`. -/
def quotedChar (q c : Char) : List Char :=
  if c = q || c = '\\' then ['\\', c]
  else if c = '\n' then ['\\', 'n']
  else if c = '\r' then ['\\', 'r']
  else if c = '\t' then ['\\', 't']
  else if isPrintable c then [c]
  else if c.toNat < 0x100 then '\\' :: 'x' :: hexPadded 2 c.toNat
  else if c.toNat < 0x10000 then '\\' :: 'u' :: hexPadded 4 c.toNat
  else '\\' :: 'U' :: hexPadded 8 c.toNat

/-- The quote for a text. -/
def quoteFor (cs : List Char) : Char := if '\'' ∈ cs && '"' ∉ cs then '"' else '\''

/-- A text in quotes. -/
def quoted (s : String) : String :=
  let cs := s.toList
  let q := quoteFor cs
  String.ofList (q :: (cs.flatMap (quotedChar q) ++ [q]))

/-- Bytes in quotes: those that are not printable ASCII as two digits. -/
def quotedBytes (bs : List UInt8) : String :=
  let cs := bs.map fun b => Char.ofNat b.toNat
  let q := quoteFor cs
  let show1 := fun c : Char =>
    if c.toNat < 128 then quotedChar q c else '\\' :: 'x' :: hexPadded 2 c.toNat
  "b" ++ String.ofList (q :: (cs.flatMap show1 ++ [q]))

end StellarWallet.Text
