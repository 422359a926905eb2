import StellarWallet.Number.Arithmetic
import StellarWallet.Number.Shortest
import StellarWallet.Number.Places

/-!
Numbers as they occur in settings, stored records and replies: whole numbers without bound and
binary64 numbers, kept apart.
-/

namespace StellarWallet

inductive Number where
  | whole (n : Int)
  | real (x : Binary64)
  deriving DecidableEq

/-- Why an arithmetic operation has no result. -/
inductive ArithmeticFault where
  /-- A whole number too large for binary64, or a power beyond it. -/
  | overflow
  | zeroDivision
  deriving DecidableEq, Repr

namespace Number

instance : Inhabited Number := ⟨.whole 0⟩

/-- The binary64 number nearest to a number that is not too large. -/
def toBinary64 : Number → Except ArithmeticFault Binary64
  | .real x => .ok x
  | .whole n =>
    let x := Binary64.ofInt n
    if x.isFinite then .ok x else .error .overflow

def isZero : Number → Bool
  | .whole n => n = 0
  | .real (.finite _ m _ _) => m = 0
  | .real _ => false

def mul (a b : Number) : Except ArithmeticFault Number :=
  match a, b with
  | .whole a, .whole b => .ok (.whole (a * b))
  | a, b => do return .real ((← a.toBinary64).mul (← b.toBinary64))

def add (a b : Number) : Except ArithmeticFault Number :=
  match a, b with
  | .whole a, .whole b => .ok (.whole (a + b))
  | a, b => do return .real ((← a.toBinary64).add (← b.toBinary64))

/-- A binary64 number to a whole power, whose exponent is first rounded to binary64 itself. -/
def powReal (x : Binary64) (e : Int) : Except ArithmeticFault Number := do
  match (← toBinary64 (.whole e)).truncate? with
  | none => .error .overflow
  | some e =>
    match x.pow e with
    | .ok y => .ok (.real y)
    | .error .zeroToNegative => .error .zeroDivision
    | .error .tooLarge => .error .overflow

/-- A number to a whole power: exact for a whole number to a natural power. -/
def pow (a : Number) (e : Int) : Except ArithmeticFault Number :=
  match a with
  | .whole n => if 0 ≤ e then .ok (.whole (Int.pow n e.toNat)) else do powReal (← a.toBinary64) e
  | .real x => powReal x e

/-- Strictly less, by exact value. -/
def lt : Number → Number → Bool
  | .whole a, .whole b => a < b
  | .real x, .real y => x.lt y
  | .whole a, .real y =>
    match y with
    | .nan => false
    | .infinite negative => !negative
    | .finite negative m q _ =>
      let (n, d) := Binary64.ratio m q
      a * d < (if negative then -(n : Int) else n)
  | .real x, .whole b =>
    match x with
    | .nan => false
    | .infinite negative => negative
    | .finite negative m q _ =>
      let (n, d) := Binary64.ratio m q
      (if negative then -(n : Int) else n) < b * d

/-- The first number unless the second is less. -/
def min (a b : Number) : Number := if b.lt a then b else a

/-- The text of a number in messages. -/
def text : Number → String
  | .whole n => toString n
  | .real x => x.text

end Number

end StellarWallet
