import Std.Time.DateTime.Timestamp
import StellarWallet.CommandLine.Run
import StellarWallet.Failure.Title

/-!
The command line of the wallet.

All decisions are made by `Command.ofArguments` and `Command.run`; here the environment, the clock
and the stored slots are read, and what the command leaves is written back. Servers are out of
reach, so a request ends like one without a connection.
-/

namespace StellarWallet.CommandLine

/-- The variables of the wallet. -/
def variableNames : List String := [
  "DIR", "NETWORK", "HORIZON_URL", "SOROBAN_RPC_URL", "STELLAR_EXPLORER_BASE_URL",
  "SOROBAN_EXPLORER_BASE_URL", "ESCROW_BALANCES_ENDPOINT", "ARENAX_BALANCE_ENDPOINT", "ORIGIN",
  "USDC_ISSUER", "ARENAX_ISSUER", "ARENAX_CONTRACT_ID", "LOG_LEVEL", "LOG_STDOUT", "LOG_FORMAT"]

def usage : String := "\n".intercalate [
  "usage: arena_wallet balances KEY [--json]",
  "       arena_wallet history [--limit N] [--json]",
  "       arena_wallet clear-history",
  "       arena_wallet session [show | connect KEY | disconnect] [--signer freighter|albedo]",
  "       arena_wallet link HASH [--kind classic|soroban]"]

def readEnvironment : IO Environment :=
  ("HOME" :: variableNames.map (Environment.stem ++ ·)).filterMapM fun name => do
    return (← IO.getEnv name).map (name, ·)

def readClock : IO Instant := do
  let nanos := (← Std.Time.Timestamp.now).toNanosecondsSinceUnixEpoch.val
  return ⟨nanos.fdiv 1000000000, (nanos.fmod 1000000000 / 1000).toNat⟩

/-- The files of the two slots. -/
def slotFiles : List String :=
  ["arena_wallet_session", "arena_wallet_tx_history"].map SlotFile.name

def readSlots (folder : String) : IO Directory :=
  slotFiles.filterMapM fun name => do
    let path := folder ++ "/" ++ name
    try return some (name, .file (← IO.FS.readBinFile path).toList)
    catch _ => return none

/-- Writes what has changed. -/
def writeSlots (folder : String) (old new : Directory) : IO Unit := do
  for name in slotFiles do
    if new.item? name ≠ old.item? name then
      let path := folder ++ "/" ++ name
      let draft := path ++ ".tmp"
      match new.item? name with
      | some (.file content) =>
        IO.FS.writeBinFile draft ⟨content.toArray⟩
        IO.FS.rename draft path
      | _ => IO.FS.removeFile path

/-- The files of a storage. -/
def directoryOf (s : Storage) : Directory :=
  match s.backend with
  | .files d => d
  | .memory _ => []

def unreachable : Server := fun _ _ => .failure ⟨.connection, "no route"⟩

def complain (fault : Fault) : IO UInt32 := do
  (← IO.getStderr).putStrLn fault.logText
  return 1

/-- Where the command keeps its slots and its log, and how it logs. -/
def places (env : Environment) : Except Fault (Path × Path × LogSettings) := do
  let logs ← LogSettings.ofEnvironment env
  let logFolder ← logs.folder env
  let folder ← (← WalletSettings.ofEnvironment env).slotDirectory env
  return (folder, logFolder, logs)

/-- Runs a command in the real surroundings. -/
def perform (c : Command) : IO UInt32 := do
  let env ← readEnvironment
  let now ← readClock
  match places env with
  | .error fault => complain fault
  | .ok (folder, logFolder, logs) =>
    let logFile := (logFolder.join (Path.ofText logs.fileName)).text
    IO.FS.createDirAll folder.text
    IO.FS.createDirAll logFolder.text
    let slots ← readSlots folder.text
    let outcome := c.run ⟨env, now, { server := unreachable }⟩ { backend := .files slots } []
    writeSlots folder.text slots (directoryOf outcome.storage)
    let handle ← IO.FS.Handle.mk logFile .append
    handle.putStr (outcome.transcript.log logs now)
    (← IO.getStdout).putStr (outcome.transcript.output logs now)
    (← IO.getStderr).putStr outcome.transcript.complaints
    match outcome.ending with
    | .ok code => return code.toUInt32
    | .error fault => complain fault

end StellarWallet.CommandLine

open StellarWallet StellarWallet.CommandLine in
def main (args : List String) : IO UInt32 := do
  match Command.ofArguments args with
  | .ok c => perform c
  | .error .help =>
    (← IO.getStdout).putStrLn usage
    return 0
  | .error .wrong =>
    (← IO.getStderr).putStrLn usage
    return 2
