import StellarWallet.Json.Printer
import StellarWallet.Log.Record
import StellarWallet.Redaction.Message
import StellarWallet.Time

/-!
The lines in which log records are written: plain text, or one JSON object a line.

A plain line shows time, logger, level and message, and then the fault on lines of its own. An
object has these as fields, with the place of the record and its context. Redaction works on the
whole plain line, and on each text of an object.
-/

namespace StellarWallet

inductive LogStyle where
  | plain
  | object
  deriving DecidableEq, Repr

structure LogFormat where
  style : LogStyle := .plain
  /-- Sensitive texts are hidden. -/
  sanitize : Bool := true
  /-- Objects say where a record was made. -/
  includeContext : Bool := true
  keepAddresses : Bool := true
  deriving DecidableEq, Repr

namespace LogFormat

/-- A text with what the format hides in it hidden. -/
def clean (f : LogFormat) (s : String) : String :=
  if f.sanitize then Redaction.redact f.keepAddresses s else s

/-- The four parts of a line. -/
def parts (time : String) (r : LogRecord) (message : String) : String :=
  " - ".intercalate [time, r.logger, Vocabulary.name r.level, message]

/-- A text, and a fault on a line after it. -/
def addFault (s : String) : Option String → String
  | none => s
  | some fault => (if s.toList.getLast? = some '\n' then s else s ++ "\n") ++ fault

/-- The plain line of a record. -/
def plainLine (f : LogFormat) (now : Instant) (r : LogRecord) : String :=
  f.clean (addFault (parts now.logTime r r.message) r.fault)

/-- The fields that say where a record was made. -/
def placeFields (r : LogRecord) : List (String × Value) :=
  [("module", .text r.module), ("function", (r.function.map Value.text).getD .null),
    ("line", .number (.whole r.line))]

/-- The field of the context, if that is an object with something in it. -/
def contextFields (f : LogFormat) : Value → List (String × Value)
  | .object [] => []
  | .object fields =>
    [("context", .object
      (if f.sanitize then Redaction.redactFields f.keepAddresses fields else fields))]
  | _ => []

/-- The object of a record. -/
def fields (f : LogFormat) (now : Instant) (r : LogRecord) : List (String × Value) :=
  [("timestamp", .text now.timestamp), ("level", .text (Vocabulary.name r.level)),
    ("logger", .text r.logger), ("message", .text (f.clean r.message))]
  ++ (if f.includeContext then placeFields r else [])
  ++ f.contextFields r.context
  ++ (r.fault.map fun fault => ("exception", .text (f.clean fault))).toList

/-- The JSON text of the object of a record. One that has none is written like a plain line, without
its fault. -/
def objectLine (f : LogFormat) (now : Instant) (r : LogRecord) : String :=
  match Json.write? (.object (f.fields now r)) with
  | some line => line
  | none =>
    " - ".intercalate [now.timestamp, r.logger, Vocabulary.name r.level, f.clean r.message]

/-- The line of a record. -/
def line (f : LogFormat) (now : Instant) (r : LogRecord) : String :=
  match f.style with
  | .plain => f.plainLine now r
  | .object => f.objectLine now r

end LogFormat

end StellarWallet
