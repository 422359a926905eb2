import StellarWallet.CommandLine.Grammar
import StellarWallet.Number.Numeral
import StellarWallet.Vocabulary

/-!
The commands, and how they are written on a command line.
-/

namespace StellarWallet

inductive SessionAction where
  | current
  | connect
  | disconnect
  deriving DecidableEq, Repr

instance : Vocabulary SessionAction where
  title := "SessionAction"
  all := [.current, .connect, .disconnect]
  name
    | .current => "show"
    | .connect => "connect"
    | .disconnect => "disconnect"

inductive Command where
  | balances (address : String) (json : Bool)
  /-- At most `limit` entries of the history. -/
  | history (limit : Int) (json : Bool)
  | clearHistory
  | session (action : SessionAction) (address : Option String) (signer : Signer)
  | link (hash : String) (kind : TxKind)
  deriving DecidableEq, Repr

namespace Command

open CommandLine

def name : Command → String
  | .balances .. => "balances"
  | .history .. => "history"
  | .clearHistory => "clear-history"
  | .session .. => "session"
  | .link .. => "link"

/-- The text names a member. -/
def isMember (α : Type) [Vocabulary α] (s : String) : Bool := (Vocabulary.ofName? α s).isSome

/-- The member that a value names, if there is a value. -/
def member (α : Type) [Vocabulary α] (values : List (String × String)) (key : String)
    (otherwise : α) : α :=
  ((Fields.lookup key values).bind (Vocabulary.ofName? α)).getD otherwise

def wholeNumber? (s : String) : Option Int := Numeral.readInt? s.toList

def jsonRule : OptionRule := ⟨["--json"], "json", .flag⟩

def limitRule : OptionRule := ⟨["--limit"], "limit", .value fun s => (wholeNumber? s).isSome⟩

def signerRule : OptionRule := ⟨["--signer"], "signer", .value (isMember Signer)⟩

def kindRule : OptionRule := ⟨["--kind"], "kind", .value (isMember TxKind)⟩

/-- What may follow the name of a command. -/
def grammar? : String → Option Grammar
  | "balances" => some { options := [jsonRule], arguments := [{ key := "address" }] }
  | "history" => some { options := [limitRule, jsonRule] }
  | "clear-history" => some {}
  | "session" => some {
      options := [signerRule]
      arguments := [
        { key := "action", required := false, accepts := isMember SessionAction },
        { key := "address", required := false }] }
  | "link" => some { options := [kindRule], arguments := [{ key := "hash" }] }
  | _ => none

/-- The command of a name with the values that were given. -/
def ofValues (name : String) (values : List (String × String)) : Command :=
  let value? (key : String) := Fields.lookup key values
  let json := (value? "json").isSome
  match name with
  | "balances" => .balances ((value? "address").getD "") json
  | "history" => .history (((value? "limit").bind wholeNumber?).getD 20) json
  | "session" =>
    .session (member SessionAction values "action" .current) (value? "address")
      (member Signer values "signer" .freighter)
  | "link" => .link ((value? "hash").getD "") (member TxKind values "kind" .classic)
  | _ => .clearHistory

/-- Reads a command after its name. -/
def readNamed (name : String) (args : List String) (surplus : Bool) : Except UsageEnd Command :=
  match grammar? name with
  | none => .error .wrong
  | some g => do
    let (values, complete) ← g.read args
    if complete && !surplus then return ofValues name values else throw .wrong

/-- Reads a command line. Only the request for help may come before the name of the command; another
option there is surplus, which is found out at the end. -/
def read (surplus : Bool) : List String → Except UsageEnd Command
  | [] => .error .wrong
  | s :: rest =>
    if s = "--" then .error .wrong
    else do
      match ← ({} : Grammar).word s with
      | .option rule joined given =>
        let _ ← Reading.option { arguments := [] } rule joined given none
        throw .wrong
      | .unknown => read true rest
      | _ => readNamed s rest surplus

def ofArguments (args : List String) : Except UsageEnd Command := read false args

end Command

end StellarWallet
