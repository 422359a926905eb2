import StellarWallet.Number.Binary64

/-!
The shortest decimal that reads back as a given binary64 number.

Of the decimals with the fewest digits among those nearer to the number than to any other, the
nearest one is taken; a tie goes to the even digit.
-/

namespace StellarWallet.Binary64

/-- Compares `c · 10^u` with `t · 2^r`. -/
def compareScales (c : Nat) (u : Int) (t : Nat) (r : Int) : Ordering :=
  compare (c * tenTo u.toNat * twoTo (-r).toNat) (t * twoTo r.toNat * tenTo (-u).toNat)

/-- The exponent `k` with `10^k ≤ m · 2^q < 10^(k+1)`, for a positive mantissa. -/
def decimalExponent (m : Nat) (q : Int) : Int :=
  let guess : Int := ((m.log2 : Int) + q) * 30103 / 100000
  if compareScales 1 (guess + 1) m q ≠ .gt then guess + 1
  else if compareScales 1 guess m q ≠ .gt then guess
  else guess - 1

/-- The largest `c` with `c · 10^u ≤ m · 2^q`. -/
def floorAt (m : Nat) (q : Int) (u : Int) : Nat :=
  (m * twoTo q.toNat * tenTo (-u).toNat) / (twoTo (-q).toNat * tenTo u.toNat)

/-- `c · 10^u` rounds to `m · 2^q`: it lies between the midpoints to the two neighbours, which
count only if the mantissa is even. -/
def readsBack (m : Nat) (q : Int) (c : Nat) (u : Int) : Bool :=
  let below := if m = twoTo 52 ∧ q ≠ -1074 then 1 else 2
  let low := compareScales c u (4 * m - below) (q - 2)
  let high := compareScales c u (4 * m + 2) (q - 2)
  if m % 2 = 0 then low ≠ .lt && high ≠ .gt else low = .gt && high = .lt

/-- The decimal of the grid of step `10^u` that stands for `m · 2^q`, if one reads back. -/
def onGrid? (m : Nat) (q : Int) (u : Int) : Option Nat :=
  let c := floorAt m q u
  match readsBack m q c u, readsBack m q (c + 1) u with
  | false, false => none
  | true, false => some c
  | false, true => some (c + 1)
  | true, true =>
    match compareScales (2 * c + 1) u (2 * m) q with
    | .gt => some c
    | .lt => some (c + 1)
    | .eq => some (c + c % 2)

/-- Grids from `u` on, each ten times finer, at most `n` of them. -/
def firstHit (m : Nat) (q : Int) : (n : Nat) → (u : Int) → Nat × Int
  | 0, u => (floorAt m q u, u)
  | n + 1, u =>
    match onGrid? m q u with
    | some c => (c, u)
    | none => firstHit m q n (u - 1)

/-- A coefficient and exponent of ten, without zeros at the end of the coefficient. -/
def dropZeros (c : Nat) (u : Int) : Nat × Int :=
  if h : c ≠ 0 ∧ c % 10 = 0 then dropZeros (c / 10) (u + 1) else (c, u)
  termination_by c
  decreasing_by omega

/-- The shortest decimal for a positive `m · 2^q`, as coefficient and exponent of ten. -/
def shortest (m : Nat) (q : Int) : Nat × Int :=
  let (c, u) := firstHit m q 17 (decimalExponent m q)
  dropZeros c u

/-- How the digits of a number are laid out. -/
structure Layout where
  /-- Exponents of the first digit from here on are written out. -/
  leastPositional : Int
  /-- Exponents of the first digit from here on are not written as places. -/
  firstScientific : Int
  nan : String
  infinity : String

/-- At least two digits of an exponent. -/
def exponentText (e : Int) : String :=
  let digits := toString e.natAbs
  (if e < 0 then "e-" else "e+") ++ (if digits.length < 2 then "0" ++ digits else digits)

def zerosText (n : Nat) : String := String.ofList (List.replicate n '0')

/-- The text of `c · 10^u`: places when the layout allows, else one digit before the point. -/
def Layout.digits (l : Layout) (c : Nat) (u : Int) : String :=
  let ds := toString c
  let first : Int := u + ds.length - 1
  if l.leastPositional ≤ first ∧ first < l.firstScientific then
    if 0 ≤ u then ds ++ zerosText u.toNat ++ ".0"
    else if 0 ≤ first then
      String.ofList (ds.toList.take (first.toNat + 1)) ++ "."
        ++ String.ofList (ds.toList.drop (first.toNat + 1))
    else "0." ++ zerosText (-first - 1).toNat ++ ds
  else
    let tail := ds.toList.drop 1
    String.ofList (ds.toList.take 1)
      ++ (if tail.isEmpty then "" else "." ++ String.ofList tail) ++ exponentText first

/-- The text of a number in a layout. -/
def Layout.render (l : Layout) : Binary64 → String
  | .nan => l.nan
  | .infinite negative => (if negative then "-" else "") ++ l.infinity
  | .finite negative m q _ =>
    (if negative then "-" else "") ++
      (if m = 0 then "0.0" else let (c, u) := shortest m q; l.digits c u)

/-- Numbers in messages. -/
def plain : Layout := ⟨-4, 16, "nan", "inf"⟩

/-- The text of a number in messages. -/
def text (x : Binary64) : String := plain.render x

end StellarWallet.Binary64
