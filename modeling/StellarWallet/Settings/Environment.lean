import StellarWallet.Settings.Path

/-!
Settings from environment variables.

A variable counts as a setting when its value is not blank; the blanks around it are dropped.
-/

namespace StellarWallet

/-- The environment variables and their values. -/
abbrev Environment := List (String × String)

namespace Environment

/-- The start of the names of all variables of the wallet. -/
def stem : String := "ARENA_WALLET_"

/-- The value of a variable, as it is. -/
def raw? (env : Environment) (name : String) : Option String :=
  (env.find? fun v => v.1 = name).map (·.2)

/-- The value of a variable of the wallet, as it is. -/
def value? (env : Environment) (name : String) : Option String := env.raw? (stem ++ name)

/-- The trimmed value of a variable of the wallet, unless it is blank. -/
def setting? (env : Environment) (name : String) : Option String :=
  match env.value? name with
  | some s => if Text.isAllBlank s.toList then none else some (String.ofList (Text.strip s.toList))
  | none => none

/-- The setting of the home directory. -/
def home (env : Environment) : String := (env.raw? "HOME").getD "/"

/-- The directory for everything that is kept when none is set. -/
def defaultDirectory (env : Environment) : Except Fault Path := do
  let start ← Path.home env.home
  return start.join (Path.ofText ".config/arena-wallet")

/-- The directory of the stored slots: the given one, else the one of the environment. -/
def storageDirectory (env : Environment) (given : Option String) : Except Fault Path :=
  match given.filter (· ≠ "") with
  | some s => (Path.ofText s).expand env.home
  | none =>
    match (env.value? "DIR").filter (· ≠ "") with
    | some s => (Path.ofText s).expand env.home
    | none => env.defaultDirectory

end Environment

end StellarWallet
