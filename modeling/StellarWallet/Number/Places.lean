import StellarWallet.Number.Binary64
import StellarWallet.Text.Blank

/-!
Numbers with a fixed count of decimal places, and amounts.

`places` rounds the exact value, a half to the even digit. An amount has up to seven places, no
zero at its end, and commas between groups of three digits.
-/

namespace StellarWallet.Binary64

/-- `m · 2^q` in units of `10^(-p)`, rounded. -/
def unitsAt (p : Nat) (m : Nat) (q : Int) : Nat :=
  let (n, d) := ratio m q
  roundQuotient (n * tenTo p) d

/-- At least `width` digits, zeros in front. -/
def padded (width n : Nat) : List Char :=
  let ds := Nat.toDigits 10 n
  List.replicate (width - ds.length) '0' ++ ds

/-- Digits in groups of three from the right. -/
def grouped (ds : List Char) : List Char :=
  match ds with
  | [] => []
  | d :: r => if r.length % 3 = 0 ∧ r ≠ [] then d :: ',' :: grouped r else d :: grouped r

/-- `units · 10^(-p)` with `p` places. -/
def placesText (p units : Nat) (group : List Char → List Char) : List Char :=
  group (Nat.toDigits 10 (units / tenTo p)) ++
    (if p = 0 then [] else '.' :: padded p (units % tenTo p))

/-- A text without the zeros, and then the point, at its end; unchanged without a point. -/
def dropPlaces (cs : List Char) : List Char :=
  if '.' ∈ cs then Text.dropEndWhile (· = '.') (Text.dropEndWhile (· = '0') cs) else cs

/-- A number with `p` places; `group` sets the integer part. -/
def places (p : Nat) (group : List Char → List Char) : Binary64 → List Char
  | .nan => "nan".toList
  | .infinite negative => (if negative then "-inf" else "inf").toList
  | .finite negative m q _ =>
    (if negative then ['-'] else []) ++ placesText p (unitsAt p m q) group

end StellarWallet.Binary64
