import StellarWallet.Number.Places
import StellarWallet.Number.Shortest

/-!
Numbers with a fixed count of digits: one digit before the point and an exponent, or whichever of
that and plain places suits the size of the number.
-/

namespace StellarWallet.Binary64

/-- `m · 2^q` in units of `10^u`, rounded; a half goes to the even unit. -/
def unitsOf (u : Int) (m : Nat) (q : Int) : Nat :=
  roundQuotient (m * twoTo q.toNat * tenTo (-u).toNat) (twoTo (-q).toNat * tenTo u.toNat)

/-- The first `p + 1` digits of `m · 2^q` as a number, and the exponent of the first one. -/
def leadingDigits (p : Nat) (m : Nat) (q : Int) : Nat × Int :=
  if m = 0 then (0, 0)
  else
    let e := decimalExponent m q
    let c := unitsOf (e - p) m q
    if c = tenTo (p + 1) then (tenTo p, e + 1) else (c, e)

/-- Whether a point without digits after it is written, and zeros at the end are kept. -/
structure PointStyle where
  lonePoint : Bool
  keepZeros : Bool

/-- `c · 10^(-p)` with its places. -/
def PointStyle.places (s : PointStyle) (p c : Nat) : List Char :=
  let cs := placesText p c id ++ (if p = 0 ∧ s.lonePoint then ['.'] else [])
  if s.keepZeros then cs else dropPlaces cs

/-- `c · 10^(e - p)` with one digit before the point, for a `c` of `p + 1` digits. -/
def PointStyle.scientific (s : PointStyle) (p c : Nat) (e : Int) : List Char :=
  s.places p c ++ (exponentText e).toList

/-- With `p` places. -/
def fixedText (alternate : Bool) (p m : Nat) (q : Int) : List Char :=
  PointStyle.places ⟨alternate, true⟩ p (unitsAt p m q)

/-- With an exponent and `p` places. -/
def scientificText (alternate : Bool) (p m : Nat) (q : Int) : List Char :=
  let (c, e) := leadingDigits p m q
  PointStyle.scientific ⟨alternate, true⟩ p c e

/-- With `p` digits: as places while the exponent is from -4 to below `p`, else with an exponent. -/
def generalText (alternate : Bool) (p m : Nat) (q : Int) : List Char :=
  let last := p - 1
  let (c, e) := leadingDigits last m q
  let style : PointStyle := ⟨alternate, alternate⟩
  if -4 ≤ e ∧ e < max p 1 then style.places (last - e).toNat c else style.scientific last c e

end StellarWallet.Binary64
