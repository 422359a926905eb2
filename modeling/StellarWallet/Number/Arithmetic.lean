import StellarWallet.Number.Binary64

/-!
Sums, products, order and whole powers of binary64 numbers, each the exact result rounded once.

A power is computed on a mantissa of `workingBits` bits, so the last rounding is exact whenever
the power fits and is right up to a relative error far below half a unit otherwise.
-/

namespace StellarWallet.Binary64

/-- The signed mantissa at the exponent `at`, which is at most `q`. -/
def mantissaAt (negative : Bool) (m : Nat) (q low : Int) : Int :=
  let n : Int := (m * twoTo (q - low).toNat : Nat)
  if negative then -n else n

def add : Binary64 → Binary64 → Binary64
  | .nan, _ | _, .nan => .nan
  | .infinite a, .infinite b => if a = b then .infinite a else .nan
  | .infinite a, _ => .infinite a
  | _, .infinite b => .infinite b
  | .finite a m q _, .finite b n r _ =>
    let low := min q r
    let s := mantissaAt a m q low + mantissaAt b n r low
    if s = 0 then zero (a && b) else ofScaled (s < 0) s.natAbs low

def mul : Binary64 → Binary64 → Binary64
  | .nan, _ | _, .nan => .nan
  | .infinite a, .infinite b => .infinite (a != b)
  | .infinite a, .finite b n _ _ => if n = 0 then .nan else .infinite (a != b)
  | .finite a m _ _, .infinite b => if m = 0 then .nan else .infinite (a != b)
  | .finite a m q _, .finite b n r _ => ofScaled (a != b) (m * n) (q + r)

/-- Strictly less, false when one side is no number. -/
def lt : Binary64 → Binary64 → Bool
  | .nan, _ | _, .nan => false
  | .infinite a, .infinite b => a && !b
  | .infinite a, .finite .. => a
  | .finite .., .infinite b => !b
  | .finite a m q _, .finite b n r _ =>
    let low := min q r
    decide (mantissaAt a m q low < mantissaAt b n r low)

def negateIf (b : Bool) : Binary64 → Binary64
  | .nan => .nan
  | .infinite s => .infinite (s != b)
  | .finite s m q h => .finite (s != b) m q h

/-! ### Whole powers -/

def workingBits : Nat := 320

/-- A positive mantissa and exponent, cut to the working bits. -/
def cutMantissa (m : Nat) (q : Int) : Nat × Int :=
  let excess := m.log2 + 1 - workingBits
  (m >>> excess, q + excess)

/-- `(m · 2^q)^e`, or `none` once its binary exponent leaves `[-4200, 4200]`. -/
def powScaled (m : Nat) (q : Int) (e : Nat) : Option (Nat × Int) :=
  if e = 0 then some (1, 0)
  else do
    let (a, p) ← powScaled m q (e / 2)
    let square := cutMantissa (a * a) (2 * p)
    let (b, r) := if e % 2 = 0 then square else cutMantissa (square.1 * m) (square.2 + q)
    if (b.log2 + r).natAbs ≤ 4200 then some (b, r) else none
  termination_by e

/-- Whether a positive finite number is at least one. -/
def atLeastOne (m : Nat) (q : Int) : Bool :=
  let (n, d) := ratio m q
  d ≤ n

/-- `m · 2^q` to a nonzero whole power, for a positive number other than one. -/
def powPositive (m : Nat) (q : Int) (e : Int) : Binary64 :=
  match powScaled m q e.natAbs with
  | none => if atLeastOne m q == decide (0 < e) then .infinite false else zero false
  | some (n, r) =>
    if 0 ≤ e then ofScaled false n r
    else if 0 ≤ r then ofRatio false 1 (n * twoTo r.toNat) else ofRatio false (twoTo (-r).toNat) n

/-- A power that has no finite value. -/
inductive PowerFault where
  | zeroToNegative
  | tooLarge
  deriving DecidableEq, Repr

/-- `x` to a whole power. -/
def pow (x : Binary64) (e : Int) : Except PowerFault Binary64 :=
  let odd := e % 2 ≠ 0
  if e = 0 then .ok (ofInt 1)
  else match x with
    | .nan => .ok .nan
    | .infinite s => .ok (if 0 < e then .infinite (s && odd) else zero (s && odd))
    | .finite s m q _ =>
      if m = 0 then if e < 0 then .error .zeroToNegative else .ok (zero (s && odd))
      else if ratio m q = (twoTo 52, twoTo 52) then .ok (negateIf (s && odd) (ofInt 1))
      else
        let y := negateIf (s && odd) (powPositive m q e)
        if y.isFinite then .ok y else .error .tooLarge

end StellarWallet.Binary64
