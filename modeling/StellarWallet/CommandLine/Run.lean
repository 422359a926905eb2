import StellarWallet.CommandLine.Command
import StellarWallet.CommandLine.Transcript
import StellarWallet.Wallet

/-!
Running commands.

A command opens the wallet on a storage, does its work, and leaves an exit code or a fault, a
transcript, and the storage. Only connecting and disconnecting write the slot of the session, and
only clearing writes that of the history.
-/

namespace StellarWallet

/-- What a command may look at besides its storage. -/
structure Surroundings where
  env : Environment
  now : Instant
  host : Host

structure CommandOutcome where
  /-- The exit code, or the fault that ended the command. -/
  ending : Except Fault Nat
  transcript : Transcript := []
  storage : Storage
  journal : Journal

namespace CommandOutcome

/-- An outcome with a transcript before its own. -/
def after (t : Transcript) (o : CommandOutcome) : CommandOutcome :=
  { o with transcript := t ++ o.transcript }

end CommandOutcome

namespace Command

/-- A text filled up with blanks at its end. -/
def padEnd (width : Nat) (s : String) : String :=
  s ++ String.ofList (List.replicate (width - s.length) ' ')

/-- A text filled up with blanks at its start. -/
def padStart (width : Nat) (s : String) : String :=
  String.ofList (List.replicate (width - s.length) ' ') ++ s

/-- A value as JSON text, on lines of its own. -/
def jsonText (v : Value) : String := Json.lines v ++ "\n"

/-- The line of a balance. -/
def balanceLine (b : AssetBalance) : Except ArithmeticFault String := do
  let available ← Amount.numberText b.available
  let locked ← Amount.numberText b.locked
  let total ← Amount.numberText b.total
  return padEnd 7 (Vocabulary.name b.asset) ++ " available " ++ padStart 16 available
    ++ "  locked " ++ padStart 12 locked ++ "  total " ++ padStart 16 total
    ++ (if b.hasTrustline then "" else "  (no trustline)") ++ "\n"

/-- The text of balances. -/
def balancesText (json : Bool) (balances : WalletBalances) : Except Fault String :=
  if json then
    .ok (jsonText (.object (balances.toList.map fun b => (Vocabulary.name b.asset, b.toValue))))
  else (String.join <$> balances.toList.mapM balanceLine).mapError ArithmeticFault.toFault

/-- A value with a text around it, unless there is nothing in it. -/
def remark (before : String) (v : Value) (after : String) : String :=
  if v.isFilled then before ++ v.display ++ after else ""

/-- The line of an entry of the history. -/
def entryLine (e : HistoryEntry) : Except Fault String := do
  let amount ← (Amount.numberText e.amount).mapError ArithmeticFault.toFault
  return e.timestamp ++ "  " ++ padEnd 8 (Vocabulary.name e.status) ++ " "
    ++ padEnd 8 (Vocabulary.name e.direction) ++ " " ++ amount ++ " " ++ Vocabulary.name e.asset
    ++ remark "  " e.link "" ++ remark "  (" e.reason ")" ++ "\n"

/-- The text of entries of the history. -/
def historyText (json : Bool) (entries : List HistoryEntry) : Except Fault String :=
  if json then return jsonText (.list (← entries.mapM HistoryEntry.toValue))
  else if entries.isEmpty then return "No transactions recorded.\n"
  else String.join <$> entries.mapM entryLine

/-- The outcome of a command that only writes a text. -/
def written (w : Wallet) (j : Journal) (text : Except Fault String) : CommandOutcome :=
  match text with
  | .ok s => { ending := .ok 0, transcript := [.output s], storage := w.storage, journal := j }
  | .error fault => { ending := .error fault, storage := w.storage, journal := j }

/-- The outcome of a command that complains and fails. -/
def refused (w : Wallet) (j : Journal) (code : Nat) (message : String) : CommandOutcome :=
  { ending := .ok code, transcript := [.complaint (message ++ "\n")], storage := w.storage,
    journal := j }

/-- Shows the balances of an address. -/
def runBalances (w : Wallet) (host : Host) (j : Journal) (address : String) (json : Bool) :
    CommandOutcome :=
  let (outcome, done) := w.settings.fetchBalances address host j
  let notes := Transcript.ofRecords (done.since j).records
  CommandOutcome.after notes
    (match outcome with
    | .ok found => written w done (balancesText json found)
    | .error fault =>
      if fault.kind = .balanceQuery then refused w done 1 fault.message
      else written w done (.error fault))

/-- Connects an address. -/
def runConnect (w : Wallet) (now : Instant) (j : Journal) (address : Option String)
    (signer : Signer) : CommandOutcome :=
  match address.filter (· ≠ "") with
  | none => refused w j 2 "A public key is required to connect."
  | some address =>
    match w.connect now address signer with
    | (.ok connected, w) =>
      CommandOutcome.after (Transcript.ofRecords (SessionSlot.connectNotes connected))
        (written w j (.ok (jsonText connected.toValue)))
    | (.error fault, w) =>
      if fault.kind.isInvalid then refused w j 1 fault.message else written w j (.error fault)

/-- Ends the session. -/
def runDisconnect (w : Wallet) (j : Journal) : CommandOutcome :=
  match w.disconnect with
  | (.ok _, w) =>
    CommandOutcome.after (Transcript.ofRecords SessionSlot.disconnectNotes)
      (written w j (.ok "Wallet disconnected.\n"))
  | (.error fault, w) => written w j (.error fault)

/-- Shows the session. -/
def runCurrent (w : Wallet) (j : Journal) : CommandOutcome :=
  let text := w.session.map fun
    | some s => jsonText s.toValue
    | none => "No wallet connected.\n"
  CommandOutcome.after (Transcript.ofRecords w.slot.currentNotes) (written w j text)

/-- Drops the history. -/
def runClear (w : Wallet) (j : Journal) : CommandOutcome :=
  let notes := Transcript.ofRecords (History.clearNotes w.tracker.history.entries.length)
  match w.clearHistory with
  | (.ok _, w) =>
    CommandOutcome.after notes (written w j (.ok "Transaction history cleared.\n"))
  | (.error fault, w) => written w j (.error fault)

/-- Runs a command on an open wallet. -/
def runOn (c : Command) (w : Wallet) (around : Surroundings) (j : Journal) : CommandOutcome :=
  match c with
  | .balances address json => runBalances w around.host j address json
  | .history limit json => written w j (historyText json (atMost limit w.tracker.history.entries))
  | .clearHistory => runClear w j
  | .session .connect address signer => runConnect w around.now j address signer
  | .session .disconnect _ _ => runDisconnect w j
  | .session .current _ _ => runCurrent w j
  | .link hash kind => written w j (.ok (w.tracker.links.link kind hash ++ "\n"))

/-- What the start of a command notes. -/
def startNotes (c : Command) (storage : Storage) : List LogRecord :=
  History.loadNotes storage ++ [.note "__main__" .debug ("Running command " ++ c.name)]

/-- Opens the wallet that the environment asks for; log and slots must have a place. -/
def openWallet (env : Environment) (storage : Storage) : Except Fault Wallet := do
  let logs ← LogSettings.ofEnvironment env
  let _ ← logs.folder env
  let settings ← WalletSettings.ofEnvironment env
  let _ ← settings.slotDirectory env
  Wallet.ofStorage settings storage

/-- Runs a command on a storage. -/
def run (c : Command) (around : Surroundings) (storage : Storage) (j : Journal) : CommandOutcome :=
  match openWallet around.env storage with
  | .error fault => { ending := .error fault, storage, journal := j }
  | .ok w =>
    CommandOutcome.after (Transcript.ofRecords (c.startNotes storage)) (c.runOn w around j)

end Command

end StellarWallet
