import StellarWallet.Number.Numeral
import StellarWallet.Text.Blank
import StellarWallet.Value.Basic
import StellarWallet.Vocabulary

/-!
Amounts: reading them from replies, and their text.

Whatever is not a number of zero or more counts as zero. The text of an amount has commas between
groups of three digits and at most seven places, the last of them no zero.
-/

namespace StellarWallet.Amount

/-- A finite number of zero or more as it is, and zero for any other. -/
def clamp (x : Binary64) : Binary64 :=
  if x.isFinite && !x.lt (.zero false) then x else .zero false

/-- The characters of an ASCII text. -/
def ascii? (bs : List UInt8) : Option (List Char) :=
  if bs.all (· < 0x80) then some (bs.map fun b => Char.ofNat b.toNat) else none

/-- Reads an amount. Only a whole number too large for binary64 has none. -/
def ofValue (v : Value) : Except ArithmeticFault Binary64 :=
  match v with
  | .number n => clamp <$> n.toBinary64
  | .text s => .ok (clamp ((Numeral.read? s.toList).getD (.zero false)))
  | .bytes bs => .ok (clamp (((ascii? bs).bind Numeral.read?).getD (.zero false)))
  | _ => .ok (.zero false)

/-- Reads an amount that may be missing. -/
def ofValue? (v : Option Value) : Except ArithmeticFault Binary64 := ofValue (v.getD .null)

/-- The places of an amount. -/
def places : Nat := 7

/-- The text of an amount. -/
def text (x : Binary64) : String :=
  String.ofList (Binary64.dropPlaces (x.places places Binary64.grouped))

/-- The text of a recorded amount, which may be a whole number too large to show. -/
def numberText (n : Number) : Except ArithmeticFault String := text <$> n.toBinary64

end StellarWallet.Amount

namespace StellarWallet

/-- Locked amounts by asset. -/
abbrev LockedAmounts := Asset → Binary64

namespace LockedAmounts

def zero : LockedAmounts := fun _ => .zero false

/-- The object that holds the amounts of a reply: its field `locked` if that is an object, else
itself. -/
def fields? (reply : Value) : Option (List (String × Value)) :=
  match reply with
  | .object fields =>
    match Fields.lookup "locked" fields with
    | some (.object inner) => some inner
    | _ => some fields
  | _ => none

/-- Reads the locked amounts of a reply. -/
def ofValue (reply : Value) : Except ArithmeticFault LockedAmounts :=
  match fields? reply with
  | none => .ok zero
  | some fields => do
    let read (a : Asset) := Amount.ofValue? (Fields.lookup (Vocabulary.name a) fields)
    let xlm ← read .xlm
    let usdc ← read .usdc
    let arenax ← read .arenax
    return fun
      | .xlm => xlm
      | .usdc => usdc
      | .arenax => arenax

end LockedAmounts

end StellarWallet
