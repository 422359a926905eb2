import StellarWallet.Log.Format
import StellarWallet.Settings.Environment
import StellarWallet.Text.Case

/-!
The settings of logging: from which level on, to which file, to the console or not, in which form.
-/

namespace StellarWallet

structure LogSettings where
  level : LogLevel := .info
  toFile : Bool := true
  toConsole : Bool := false
  /-- The folder of the file; by default the one where everything is kept. -/
  directory : Option Path := none
  fileName : String := "wallet.log"
  style : LogStyle := .plain
  sanitize : Bool := true
  includeContext : Bool := true
  deriving DecidableEq, Repr

namespace LogSettings

/-- The level of a name in any case; any other name stands for INFO. -/
def levelOfName (name : String) : LogLevel :=
  (Vocabulary.ofName? LogLevel (String.ofList (Text.upper name.toList))).getD .info

/-- A text that means yes. -/
def isYes (s : String) : Bool :=
  let cs := Text.searchForm s.toList
  cs = "1".toList || cs = "true".toList || cs = "yes".toList

def styleOfName (name : String) : LogStyle :=
  if Text.searchForm name.toList = "json".toList then .object else .plain

/-- The settings that the environment asks for. The values count as they are, blanks included. -/
def ofEnvironment (env : Environment) : Except Fault LogSettings := do
  let directory ← match (env.value? "DIR").filter (· ≠ "") with
    | some s => some <$> (Path.ofText s).expand env.home
    | none => pure none
  return {
    level := levelOfName ((env.value? "LOG_LEVEL").getD "INFO")
    toConsole := isYes ((env.value? "LOG_STDOUT").getD "")
    style := styleOfName ((env.value? "LOG_FORMAT").getD "human")
    directory }

/-- The folder of the log file. -/
def folder (s : LogSettings) (env : Environment) : Except Fault Path :=
  match s.directory with
  | some path => .ok path
  | none => env.defaultDirectory

/-- The form of the lines. -/
def format (s : LogSettings) : LogFormat :=
  { style := s.style, sanitize := s.sanitize, includeContext := s.includeContext }

/-- The record is at the level of the settings or above. -/
def admits (s : LogSettings) (r : LogRecord) : Bool := s.level.rank ≤ r.level.rank

/-- The line of a record with its end. -/
def line (s : LogSettings) (now : Instant) (r : LogRecord) : String := s.format.line now r ++ "\n"

end LogSettings

end StellarWallet
