import StellarWallet.Number.Binary64
import StellarWallet.Text.Word

/-!
Reading decimal numerals.

A numeral is a coefficient and an exponent of ten; its value is rounded once. Numerals typed by
people may hold digits of any script, single underscores between digits and blanks around them.
-/

namespace StellarWallet

/-- `± coefficient · 10^exponent`, with the count of digits that were written. -/
structure Numeral where
  negative : Bool
  coefficient : Nat
  written : Nat
  exponent : Int
  deriving DecidableEq, Repr

namespace Numeral

/-- Longer whole numbers are refused. -/
def maxWholeDigits : Nat := 4300

/-- Beyond this exponent of the first digit every number is infinite, below its negative zero. -/
def reach : Int := 400

/-- The binary64 number nearest to the numeral. -/
def toBinary64 (n : Numeral) : Binary64 :=
  if n.coefficient = 0 then .zero n.negative
  else if reach < n.exponent then .infinite n.negative
  else if n.exponent + n.written < -reach then .zero n.negative
  else if 0 ≤ n.exponent then .ofRatio n.negative (n.coefficient * tenTo n.exponent.toNat) 1
  else .ofRatio n.negative n.coefficient (tenTo (-n.exponent).toNat)

/-- The leading ASCII digits of a text, their value and count, and the rest. -/
def takeDigits (cs : List Char) : Nat × Nat × List Char :=
  let ds := cs.takeWhile Char.isDigit
  (Nat.ofDigitChars 10 ds 0, ds.length, cs.dropWhile Char.isDigit)

/-- A leading sign. -/
def takeSign : List Char → Bool × List Char
  | '-' :: r => (true, r)
  | '+' :: r => (false, r)
  | r => (false, r)

/-- An exponent part at the start of a text, or none. -/
def takeExponent (cs : List Char) : Int × List Char :=
  match cs with
  | e :: r =>
    if e = 'e' || e = 'E' then
      let (negative, r) := takeSign r
      match takeDigits r with
      | (_, 0, _) => (0, cs)
      | (n, _, rest) => (if negative then -(n : Int) else n, rest)
    else (0, cs)
  | [] => (0, cs)

/-- Places after a decimal point at the start of a text, or none. -/
def takePlaces : List Char → Option (Nat × Nat × List Char)
  | '.' :: r => some (takeDigits r)
  | _ => none

/-- Single underscores between two digits may be left out; any other refuses the text. -/
def dropUnderscores (afterDigit : Bool) : List Char → Option (List Char)
  | [] => some []
  | ['_'] => none
  | '_' :: d :: r =>
    if afterDigit && d.isDigit then (dropUnderscores true r).map (d :: ·) else none
  | c :: r => (dropUnderscores c.isDigit r).map (c :: ·)

/-- The text with digits of any script written in ASCII. -/
def asciiDigits (cs : List Char) : List Char :=
  cs.map fun c =>
    if c.toNat < 128 then c
    else match Text.digitValue? c with
      | some d => Nat.digitChar d
      | none => c

/-- Reads a whole decimal numeral: digits with at most one point among them, and an exponent. -/
def ofDecimal? (cs : List Char) : Option Numeral := do
  let (negative, cs) := takeSign cs
  let (whole, wholeCount, rest) := takeDigits cs
  let (part, partCount, rest) := (takePlaces rest).getD (0, 0, rest)
  if wholeCount + partCount = 0 then none
  else
    let (e, rest) := takeExponent rest
    if rest.isEmpty then
      some ⟨negative, whole * tenTo partCount + part, wholeCount + partCount, e - partCount⟩
    else none

/-- Blanks that may stand around a numeral: all but the four separators of records. -/
def isAround (c : Char) : Bool := Text.isBlank c && (c.toNat < 0x1C || 0x1F < c.toNat)

/-- A numeral without the blanks around it, its digits written in ASCII. -/
def normalize (cs : List Char) : List Char :=
  Text.dropEndWhile isAround ((asciiDigits cs).dropWhile isAround)

/-- The words that stand for numbers without digits. -/
def ofWord? (cs : List Char) : Option Binary64 :=
  let (negative, cs) := takeSign cs
  let word := cs.map Char.toLower
  if word = "inf".toList || word = "infinity".toList then some (.infinite negative)
  else if word = "nan".toList then some .nan
  else none

/-- Reads a number as people type it. -/
def read? (cs : List Char) : Option Binary64 :=
  let cs := normalize cs
  match ofWord? cs with
  | some x => some x
  | none => (dropUnderscores false cs).bind fun cs => (ofDecimal? cs).map toBinary64

/-- Reads an integer as people type it. -/
def readInt? (cs : List Char) : Option Int := do
  let (negative, cs) := takeSign (normalize cs)
  let cs ← dropUnderscores false cs
  match takeDigits cs with
  | (n, k + 1, []) =>
    if k < maxWholeDigits then some (if negative then -(n : Int) else n) else none
  | _ => none

end Numeral

end StellarWallet
