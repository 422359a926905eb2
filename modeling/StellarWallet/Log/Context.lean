import StellarWallet.Log.Record
import StellarWallet.Log.Template

/-!
Loggers with a context, and the records that they make.

A context is a set of fields that a logger adds to all of its records. A call may bring fields of
its own along, which win over those of the logger.
-/

namespace StellarWallet

/-- The fields that a logger adds to its records. -/
abbrev LogContext := List (String × Value)

namespace LogContext

/-- A context with more fields. -/
def add (c : LogContext) (more : List (String × Value)) : LogContext := Fields.merge c more

/-- What is said of fields of a call that are no object. -/
def notFields : Fault := ⟨.wrongType, ""⟩

/-- The attachments of a record: those of the call, and the context of the logger under the fields
that the call gives. -/
def attach (c : LogContext) (extra : List (String × Value)) :
    Except Fault (List (String × Value)) :=
  if c.isEmpty then .ok extra
  else match Fields.lookup "context" extra with
    | none => .ok (Fields.put "context" (.object c) extra)
    | some (.object given) => .ok (Fields.put "context" (.object (c.add given)) extra)
    | some _ => .error notFields

end LogContext

/-- A call of a logger. -/
structure LogCall where
  logger : String
  level : LogLevel
  template : String
  args : List Value := []
  context : LogContext := []
  extra : List (String × Value) := []

namespace LogCall

/-- Names that every record has already. -/
def reservedNames : List String := [
  "name", "msg", "args", "levelname", "levelno", "pathname", "filename", "module", "exc_info",
  "exc_text", "stack_info", "lineno", "funcName", "created", "msecs", "relativeCreated", "thread",
  "threadName", "processName", "process", "message", "asctime"]

/-- The refusal of an attachment under a reserved name. -/
def overwrites (name : String) : Fault := ⟨.missingKey, (Value.text name).literal⟩

/-- The attachments of the record of a call. -/
def attachments (c : LogCall) : Except Fault (List (String × Value)) := do
  let all ← c.context.attach c.extra
  match all.find? fun f => reservedNames.contains f.1 with
  | some f => .error (overwrites f.1)
  | none => .ok all

/-- The record of a call; `none` if template and arguments do not go together. -/
def record? (c : LogCall) : Except Fault (Option LogRecord) := do
  let attached ← c.attachments
  match fillTemplate c.template c.args with
  | .error _ => return none
  | .ok message =>
    return some { logger := c.logger, level := c.level, message
                  context := (Fields.lookup "context" attached).getD .null }

end LogCall

end StellarWallet
