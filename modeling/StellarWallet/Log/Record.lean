import StellarWallet.Text.Search
import StellarWallet.Value.Display
import StellarWallet.Vocabulary

/-!
Log records: what a part of the wallet notes, at which level, with which context.
-/

namespace StellarWallet

inductive LogLevel where
  | debug
  | info
  | warning
  | error
  | critical
  deriving DecidableEq, Repr

instance : Vocabulary LogLevel where
  title := "LogLevel"
  all := [.debug, .info, .warning, .error, .critical]
  name
    | .debug => "DEBUG"
    | .info => "INFO"
    | .warning => "WARNING"
    | .error => "ERROR"
    | .critical => "CRITICAL"

def LogLevel.rank : LogLevel → Nat
  | .debug => 10
  | .info => 20
  | .warning => 30
  | .error => 40
  | .critical => 50

structure LogRecord where
  logger : String
  level : LogLevel
  message : String
  /-- Fields that go with the message in structured lines. -/
  context : Value := .null
  /-- The text of a fault that goes with the message. -/
  fault : Option String := none
  /-- The file, function and line where the record was made. -/
  path : String := ""
  function : Option String := none
  line : Int := 0

/-- The name of the module in a file: the name of the file without its last extension. Dots at the
start of a name begin no extension. -/
def LogRecord.module (r : LogRecord) : String :=
  let file := ((Text.pieces '/' r.path.toList).getLast?).getD []
  let extension := file.reverse.takeWhile (· ≠ '.')
  let stem := file.take (file.length - extension.length - 1)
  String.ofList (if stem.all (· = '.') then file else stem)

/-- The name of the logger of a part of the wallet. -/
def loggerName (part : String) : String := "arena_wallet." ++ part

/-- A record of a part of the wallet. -/
def LogRecord.note (part : String) (level : LogLevel) (message : String) : LogRecord :=
  { logger := loggerName part, level, message }

end StellarWallet
