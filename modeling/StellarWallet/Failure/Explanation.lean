import StellarWallet.Text.Case
import StellarWallet.Text.Search

/-!
Explanations of failures for the user, found by what a message says.

The first explanation of the list with a clue in the message, in either case, is taken.
-/

namespace StellarWallet

/-- What is looked for in a message. -/
inductive Clue where
  | words (w : String)
  /-- `a`, and later on the same line `b`. -/
  | inOrder (a b : String)
  deriving DecidableEq, Repr

namespace Clue

/-- The clue is in a text of small letters. -/
def isIn (cs : List Char) : Clue → Bool
  | .words w => Text.hasInfix w.toList cs
  | .inOrder a b => Text.hasInfixesOnLine a.toList b.toList cs

def pattern : Clue → String
  | .words w => w
  | .inOrder a b => a ++ ".*" ++ b

end Clue

structure Explanation where
  clues : List Clue
  message : String
  /-- The ledger or the wallet refused the transaction; the reason stands beside any other error. -/
  ledger : Bool
  deriving DecidableEq, Repr

namespace Explanation

/-- The clues, as one pattern. -/
def pattern (e : Explanation) : String := "|".intercalate (e.clues.map Clue.pattern)

def all : List Explanation := [
  ⟨[.words "denied", .words "rejected", .words "declined"],
    "Transaction was rejected in your wallet.", true⟩,
  ⟨[.words "op_no_trust"], "Destination account does not trust the selected asset.", true⟩,
  ⟨[.words "op_underfunded", .words "insufficient"],
    "Insufficient balance for this transfer.", true⟩,
  ⟨[.words "op_no_destination"], "Destination account does not exist on Stellar.", true⟩,
  ⟨[.words "timeout", .words "timed out"],
    "Connection timed out. The server may be slow or unavailable.", false⟩,
  ⟨[.words "connection refused", .words "cannot connect", .words "connection error"],
    "Unable to connect to the server.", false⟩,
  ⟨[.words "rate limit", .words "too many requests", .words "429"],
    "Too many requests. Please slow down.", false⟩,
  ⟨[.words "tx_bad_seq"], "Transaction sequence number is out of date.", false⟩,
  ⟨[.words "tx_insufficient_fee", .inOrder "fee" "too low"],
    "Transaction fee is too low.", false⟩]

/-- One of the clues is in a text of small letters. -/
def fits (cs : List Char) (e : Explanation) : Bool := e.clues.any (Clue.isIn cs)

/-- The explanation of a message. -/
def find? (message : String) : Option Explanation :=
  all.find? (fits (Text.searchForm message.toList))

/-- The explanation of a refusal by the ledger or the wallet. -/
def ledgerReason? (message : String) : Option String :=
  match find? message with
  | some e => if e.ledger then some e.message else none
  | none => none

end Explanation

end StellarWallet
