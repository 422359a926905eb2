/-!
Binary64 numbers with their values spelled out.

A finite number is `± m · 2^q` in the one form in which binary64 stores it. `ofRatio` rounds a
quotient to the nearest such number, a half to the even neighbour.
-/

namespace StellarWallet

/-- Two to a power. -/
abbrev twoTo (n : Nat) : Nat := Nat.pow 2 n

/-- Ten to a power. -/
abbrev tenTo (n : Nat) : Nat := Nat.pow 10 n

theorem twoTo_pos (n : Nat) : 0 < twoTo n := Nat.pow_pos (by decide)

theorem tenTo_pos (n : Nat) : 0 < tenTo n := Nat.pow_pos (by decide)

/-- `m · 2^q` in the form that binary64 stores: 53 bits, the top one set unless `q` is the least. -/
def Binary64.IsCanonical (m : Nat) (q : Int) : Prop :=
  m < twoTo 53 ∧ -1074 ≤ q ∧ q ≤ 971 ∧ (twoTo 52 ≤ m ∨ q = -1074)

instance (m : Nat) (q : Int) : Decidable (Binary64.IsCanonical m q) :=
  inferInstanceAs (Decidable (_ ∧ _ ∧ _ ∧ _))

inductive Binary64 where
  | nan
  | infinite (negative : Bool)
  | finite (negative : Bool) (m : Nat) (q : Int) (canonical : Binary64.IsCanonical m q)
  deriving DecidableEq

/-- The integer nearest to `n / d`; a half goes to the even neighbour. -/
def roundQuotient (n d : Nat) : Nat :=
  let k := n / d
  let r := 2 * (n % d)
  if r < d then k else if d < r then k + 1 else k + k % 2

namespace Binary64

theorem isCanonical_zero : IsCanonical 0 (-1074) := by decide

def zero (negative : Bool) : Binary64 := .finite negative 0 (-1074) isCanonical_zero

instance : Inhabited Binary64 := ⟨zero false⟩

def isFinite : Binary64 → Bool
  | .finite .. => true
  | _ => false

def isNegative : Binary64 → Bool
  | .nan => false
  | .infinite negative | .finite negative .. => negative

/-- The number `± m · 2^q`, a carry out of 53 bits moved into the exponent; infinite when too
large. -/
def pack (negative : Bool) (m : Nat) (q : Int) : Binary64 :=
  if h : IsCanonical m q then .finite negative m q h
  else if h : IsCanonical (m / 2) (q + 1) then .finite negative (m / 2) (q + 1) h
  else .infinite negative

/-- `n / d · 2^(-q)` as a quotient of natural numbers. -/
def scaleDown (n d : Nat) (q : Int) : Nat × Nat :=
  if 0 ≤ q then (n, d * twoTo q.toNat) else (n * twoTo (-q).toNat, d)

/-- The exponent at which `n / d` has 53 bits before the point, or the least one. -/
def exponentOf (n d : Nat) : Int :=
  let q : Int := (n.log2 : Int) - d.log2 - 53
  let (a, b) := scaleDown n d q
  max (-1074) (if a < twoTo 53 * b then q else q + 1)

/-- The number nearest to `± n / d`. -/
def ofRatio (negative : Bool) (n d : Nat) : Binary64 :=
  if n = 0 then zero negative
  else
    let q := exponentOf n d
    let (a, b) := scaleDown n d q
    pack negative (roundQuotient a b) q

/-- The number nearest to `± m · 2^q`. -/
def ofScaled (negative : Bool) (m : Nat) (q : Int) : Binary64 :=
  if 0 ≤ q then ofRatio negative (m * twoTo q.toNat) 1 else ofRatio negative m (twoTo (-q).toNat)

/-- The number nearest to an integer. -/
def ofInt (n : Int) : Binary64 := ofRatio (n < 0) n.natAbs 1

/-- The size of `m · 2^q` as a quotient. -/
def ratio (m : Nat) (q : Int) : Nat × Nat := scaleDown m 1 (-q)

/-- The integer between a finite number and zero that is nearest to the number. -/
def truncate? : Binary64 → Option Int
  | .finite negative m q _ =>
    let (n, d) := ratio m q
    some (if negative then -((n / d : Nat) : Int) else (n / d : Nat))
  | _ => none

end Binary64

end StellarWallet
