import StellarWallet.Failure.Fault
import StellarWallet.Number.Basic

/-!
When a failed request is repeated, and after which delay.

The delay grows by a constant factor from one attempt to the next, up to a limit.
-/

namespace StellarWallet

structure RetryPolicy where
  /-- How often a request is repeated at most. -/
  maxRetries : Int := 2
  baseDelay : Number := .real (.ofRatio false 1 2)
  maxDelay : Number := .real (.ofInt 8)
  factor : Number := .real (.ofInt 2)
  /-- Failing statuses that may pass. -/
  statuses : List Int := [408, 429, 500, 502, 503, 504]

namespace RetryPolicy

/-- A single attempt. -/
def never : RetryPolicy := { maxRetries := 0 }

/-- The delay after the attempt with the given number, counted from zero. -/
def delay (p : RetryPolicy) (attempt : Int) : Except ArithmeticFault Number := do
  let grown ← p.baseDelay.mul (← p.factor.pow attempt)
  return grown.min p.maxDelay

/-- The fault may pass. -/
def retries (p : RetryPolicy) (fault : Fault) : Bool :=
  fault.kind.isTimeout || fault.kind.isConnection ||
    match fault.kind with
    | .http (some response) => response.status ≠ 0 && p.statuses.contains response.status
    | _ => false

end RetryPolicy

end StellarWallet
