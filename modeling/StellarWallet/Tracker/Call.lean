import StellarWallet.Failure.Reason
import StellarWallet.Tracker.Basic

/-!
Tracked transactions, from the start of the work on them to their record.

A call works until the work ends, then waits for the confirmation of the hash it got, and ends with
exactly one attempt to record its outcome; only when recording a success fails, a failure is
recorded after it. Its phase never goes back. Being cancelled is a failure of its own.
-/

namespace StellarWallet

/-- What is known of a transaction before the work on it. -/
structure TxMeta where
  kind : TxKind
  direction : TxDirection
  asset : Asset
  amount : Number
  title : Option String := none

/-- How work, or a wait, ends. -/
inductive Ending (α : Type) where
  | returned (a : α)
  | raised (fault : Fault)
  | cancelled

inductive CallOutcome where
  | hash (s : String)
  | fault (fault : Fault)
  | cancelled
  deriving DecidableEq, Repr

inductive CallStage where
  | working
  | confirming (hash : String)
  | ended (outcome : CallOutcome)
  deriving DecidableEq, Repr

structure Call where
  /-- The transaction as it would be recorded now. -/
  entry : HistoryEntry
  phase : TxPhase
  stage : CallStage := .working

namespace Call

def defaultTitle : String := "Transaction Pending"

def cancelReason : String := "Transaction tracking was cancelled."

/-- The fault of work that hands over no hash. -/
def noHash : Fault := ⟨.invalidValue, "Submitted transaction did not return a hash."⟩

/-- The phase in which a transaction starts: one with a contract has to be signed first. -/
def firstPhase : TxKind → TxPhase
  | .soroban => .signing
  | .classic => .submitted

def isEnded (c : Call) : Bool :=
  match c.stage with
  | .ended _ => true
  | _ => false

/-- Starts tracking a transaction. -/
def start (t : Tracker) (info : TxMeta) (id timestamp : String) : Call × Tracker :=
  let phase := firstPhase info.kind
  let entry : HistoryEntry :=
    { id, kind := .known info.kind, direction := info.direction, asset := info.asset
      amount := info.amount, status := .pending, timestamp, phase := some phase }
  let title := (info.title.filter (· ≠ "")).getD defaultTitle
  ({ entry, phase }, t.present ⟨title, entry⟩)

/-- Moves on to a phase; a phase before the current one is ignored, and so is any after the end. -/
def setPhase (c : Call) (t : Tracker) (phase : TxPhase) : Call × Tracker :=
  if c.isEnded ∨ phase < c.phase then (c, t)
  else
    let entry := { c.entry with phase := some phase }
    ({ c with entry, phase }, t.refresh entry)

/-- Ends as failed for a reason, with the given outcome unless recording it fails. -/
def endFailed (c : Call) (t : Tracker) (reason : String) (outcome : CallOutcome) : Call × Tracker :=
  let entry := { c.entry with status := .failed, reason := .text reason }
  let (recorded, t) := (t.refresh entry).commit entry
  let outcome := match recorded with
    | .ok () => outcome
    | .error fault => .fault fault
  ({ c with entry, stage := .ended outcome }, t)

/-- Ends because of a fault, which is reduced to its reason. -/
def raise (c : Call) (t : Tracker) (fault : Fault) : Call × Tracker :=
  let reason := Reason.ofFault fault
  c.endFailed t reason (.fault ⟨.transaction, reason⟩)

/-- Ends because of being cancelled. -/
def cancel (c : Call) (t : Tracker) : Call × Tracker := c.endFailed t cancelReason .cancelled

/-- Goes on to wait for the confirmation of a hash. -/
def submit (c : Call) (t : Tracker) (hash : String) : Call × Tracker :=
  let c := { c with entry := { c.entry with hash := .text hash } }
  let (c, t) := if c.phase = .signing then c.setPhase t .submitted else (c, t)
  match t.links.recordedLink c.entry.kind hash with
  | .error fault => c.raise t fault
  | .ok link =>
    let entry := { c.entry with link := .text link }
    ({ c with entry, stage := .confirming hash }, t.refresh entry)

/-- Takes what the work handed over. -/
def receive (c : Call) (t : Tracker) (result : WorkResult) : Call × Tracker :=
  match result.extract c.entry.kind with
  | .error fault => c.raise t fault
  | .ok (hash, kind) =>
    let c := { c with entry := { c.entry with kind } }
    match hash with
    | .text s => if s = "" then c.raise t noHash else c.submit t s
    | _ => c.raise t noHash

/-- Ends as confirmed. -/
def succeed (c : Call) (t : Tracker) (hash : String) : Call × Tracker :=
  let (c, t) := c.setPhase t .confirmed
  let c := { c with entry := { c.entry with status := .success } }
  match (t.refresh c.entry).commit c.entry with
  | (.ok (), t) => ({ c with stage := .ended (.hash hash) }, t)
  | (.error fault, t) => c.raise t fault

/-- The work has ended. -/
def finishWork (c : Call) (t : Tracker) (ending : Ending WorkResult) : Call × Tracker :=
  match c.stage with
  | .working =>
    match ending with
    | .returned result => c.receive t result
    | .raised fault => c.raise t fault
    | .cancelled => c.cancel t
  | _ => (c, t)

/-- The wait for the confirmation has ended. -/
def finishConfirmation (c : Call) (t : Tracker) (ending : Ending Unit) : Call × Tracker :=
  match c.stage with
  | .confirming hash =>
    match ending with
    | .returned () => c.succeed t hash
    | .raised fault => c.raise t fault
    | .cancelled => c.cancel t
  | _ => (c, t)

end Call

end StellarWallet
