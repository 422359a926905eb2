import StellarWallet.Failure.Explanation
import StellarWallet.Failure.Fault
import StellarWallet.Redaction.Message
import StellarWallet.Value.Display

/-!
Reasons: a failure in one short line that is safe to show.

A reason is an explanation where there is one, else the first line of the message, redacted and
cut to 160 characters.
-/

namespace StellarWallet.Reason

def unexplained : String := "Transaction failed."

def unexplainedByLedger : String := "Transaction failed on Stellar network."

def networkFailure : String := "A network error occurred while processing the transaction."

def maxLength : Nat := 160

/-- A failure as code hands it over: raised, or as a plain value. -/
inductive Failure where
  | raised (fault : Fault)
  | value (v : Value)

def orElse (s t : String) : String := if s = "" then t else s

/-- At most `maxLength` characters; what is cut is marked. -/
def cutTo (cs : List Char) : List Char :=
  if maxLength < cs.length then Text.stripEnd (cs.take (maxLength - 3)) ++ "...".toList else cs

/-- The first line of a message, redacted and cut. -/
def shorten (message : String) : String :=
  let line := Text.firstLine (Text.strip message.toList)
  String.ofList (cutTo (Redaction.redactChars true line))

/-- The first operation code of a failed transaction, as text; empty when there is none. -/
def operationCode (payload : Value) : String :=
  let codes := ((payload.field? "extras").bind (·.field? "result_codes")).bind
    (·.field? "operations")
  match codes with
  | some (.list (code :: _)) => if code.isFilled then code.display else ""
  | _ => ""

/-- The reason of a transaction that the ledger reports as failed. -/
def ofLedgerReply (payload : Value) : String :=
  let code := operationCode payload
  if code ≠ "" then
    (Explanation.ledgerReason? code).getD ("Operation failed: " ++ code ++ ".")
  else match payload.field? "title" with
    | some (.text title) => orElse title unexplainedByLedger
    | _ => unexplainedByLedger

/-- The reason of a raised fault. -/
def ofFault (fault : Fault) : String :=
  match fault.kind with
  | .transaction => orElse fault.message unexplained
  | .network .. =>
    match Explanation.find? fault.message with
    | some e => e.message
    | none => networkFailure
  | _ =>
    let message := String.ofList (Text.strip fault.message.toList)
    (Explanation.ledgerReason? message).getD (orElse (shorten message) unexplained)

/-- The reason that a plain value gives. -/
def ofValue (v : Value) : String :=
  match v with
  | .object fields =>
    match Fields.lookup "message" fields with
    | some (.text message) =>
      if message ≠ "" then shorten message else ofResponse fields
    | _ => ofResponse fields
  | _ => unexplained
where
  ofResponse (fields : List (String × Value)) : String :=
    match Fields.lookup "response" fields with
    | some response => if response.isFilled then ofLedgerReply response else unexplained
    | none => unexplained

/-- The reason of a failure. -/
def ofFailure : Failure → String
  | .raised fault => ofFault fault
  | .value v => ofValue v

end StellarWallet.Reason
