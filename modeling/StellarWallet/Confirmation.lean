import StellarWallet.Balance.Snapshot
import StellarWallet.Failure.Reason

/-!
Waiting until a submitted transaction is final.

The state is asked for again and again, up to a limit; the first decisive reply counts. On the
classic ledger a failed question ends the waiting, on the contract ledger it is a pause like any
other.
-/

namespace StellarWallet

/-- How a reply decides. -/
inductive Verdict where
  | confirmed
  | failed (message : String)
  /-- Nothing is decided; the next question follows after a pause. -/
  | undecided (pause : Number)

namespace Confirmation

def part : String := "features.transactions.confirmation"

def fault (message : String) : Fault := ⟨.confirmation, message⟩

def unverified : Fault := fault "Unable to verify transaction status from Horizon."

def classicTimeout : Fault := fault "Timed out waiting for Stellar confirmation."

def sorobanTimeout : Fault := fault "Timed out waiting for Soroban confirmation."

/-- What a reply of the classic ledger decides. -/
def classicVerdict (policy : ConfirmationPolicy) (reply : Value) : Verdict :=
  if reply.isNull then .undecided policy.notFoundDelay
  else match reply.field? "successful" with
    | some (.bool true) => .confirmed
    | some (.bool false) => .failed (Reason.ofLedgerReply reply)
    | _ => .undecided policy.pendingDelay

/-- The message for a transaction that failed in a contract. -/
def contractFailure (result : Value) : String :=
  match result.field? "errorResultXdr" with
  | some (.text _) => "Soroban transaction failed while executing contract call."
  | _ => "Soroban transaction failed."

/-- The message of an error in a reply. -/
def errorMessage? (reply : Value) : Option String :=
  match (reply.field? "error").bind (·.field? "message") with
  | some message => if message.isFilled then some message.display else none
  | none => none

/-- What a reply of the contract ledger decides. An error counts before a result. -/
def sorobanVerdict (policy : ConfirmationPolicy) (reply : Value) : Verdict :=
  match errorMessage? reply with
  | some message => .failed message
  | none =>
    match reply.field? "result" with
    | some result =>
      match result.field? "status" with
      | some (.text "SUCCESS") => .confirmed
      | some (.text "FAILED") => .failed (contractFailure result)
      | _ => .undecided policy.pollDelay
    | none => .undecided policy.pollDelay

/-- Asks up to `left` more times; `question` is told how many times it was asked before. -/
def poll (question : Nat → Net Fault Verdict) (timeout : Fault) :
    (left asked : Nat) → Net Fault Unit
  | 0, _ => Net.fail timeout
  | left + 1, asked => do
    match ← question asked with
    | .confirmed => return ()
    | .failed message => Net.fail (Confirmation.fault message)
    | .undecided pause =>
      Net.pause pause
      poll question timeout left (asked + 1)

end Confirmation

namespace WalletSettings

open Confirmation

/-- The client that asks for the state of classic transactions. -/
def classicStateClient (s : WalletSettings) : Client := .ofBase s.horizon s.timeouts .never

/-- The client that asks for the state of contract transactions. -/
def sorobanStateClient (s : WalletSettings) : Client := .ofBase s.soroban s.timeouts .never

/-- Asks the classic ledger once. -/
def askClassic (s : WalletSettings) (hash : String) (asked : Nat) : Net Fault Verdict := do
  let reply ← (s.classicStateClient.getOptional ("/transactions/" ++ ExplorerLinks.segment hash)
    "Check Horizon transaction").outcome
  match reply with
  | .error (.network problem) =>
    Net.note part .warning
      ("Horizon status check for " ++ hash ++ " failed: " ++ problem.message)
    Net.fail unverified
  | .error other => Net.fail other.toFault
  | .ok reply =>
    if reply.isNull then
      Net.note part .debug
        ("Transaction " ++ hash ++ " not ingested yet (attempt " ++ toString (asked + 1) ++ ")")
    return classicVerdict s.confirmation reply

/-- The question to the contract ledger. -/
def sorobanQuestion (hash : String) (asked : Nat) : Value :=
  .object [
    ("jsonrpc", .text "2.0"),
    ("id", .text (hash ++ "-" ++ toString asked)),
    ("method", .text "getTransaction"),
    ("params", .object [("hash", .text hash)])]

/-- Asks the contract ledger once. -/
def askSoroban (s : WalletSettings) (hash : String) (asked : Nat) : Net Fault Verdict := do
  let reply ← (s.sorobanStateClient.post "" "Soroban getTransaction"
    [("json", sorobanQuestion hash asked)]).outcome
  match reply with
  | .error (.network problem) =>
    Net.note part .debug ("Soroban RPC poll for " ++ hash ++ " failed: " ++ problem.message)
    return .undecided s.confirmation.pollDelay
  | .error other => Net.fail other.toFault
  | .ok reply => return sorobanVerdict s.confirmation reply

/-- Waits until a transaction is final; fails when it failed or stays undecided. -/
def confirm (s : WalletSettings) (hash : String) (kind : TxKind) : Net Fault Unit := do
  match kind with
  | .classic => poll (s.askClassic hash) classicTimeout s.confirmation.classicAttempts.toNat 0
  | .soroban => poll (s.askSoroban hash) sorobanTimeout s.confirmation.sorobanAttempts.toNat 0
  Net.note part .info
    ("Transaction " ++ hash ++ " confirmed (" ++ Vocabulary.name kind ++ ")")

end WalletSettings

end StellarWallet
