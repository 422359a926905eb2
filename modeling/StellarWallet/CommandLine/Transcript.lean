import StellarWallet.Log.Settings

/-!
What a command writes: to its output, to its error output, and to the log.

The log goes to a file, and to the output as well if the settings say so.
-/

namespace StellarWallet

inductive ConsoleEvent where
  | output (text : String)
  | complaint (text : String)
  | noted (record : LogRecord)

abbrev Transcript := List ConsoleEvent

namespace Transcript

/-- The records of a transcript. -/
def ofRecords (records : List LogRecord) : Transcript := records.map .noted

/-- The line of a record, if the settings admit it. -/
def logLine (s : LogSettings) (now : Instant) (r : LogRecord) : String :=
  if s.admits r then s.line now r else ""

/-- What stands on the output. -/
def output (t : Transcript) (s : LogSettings) (now : Instant) : String :=
  String.join (t.map fun
    | .output text => text
    | .complaint _ => ""
    | .noted r => if s.toConsole then logLine s now r else "")

/-- What stands on the error output. -/
def complaints (t : Transcript) : String :=
  String.join (t.map fun
    | .complaint text => text
    | _ => "")

/-- What is added to the log file. -/
def log (t : Transcript) (s : LogSettings) (now : Instant) : String :=
  String.join (t.map fun
    | .noted r => logLine s now r
    | _ => "")

end Transcript

end StellarWallet
