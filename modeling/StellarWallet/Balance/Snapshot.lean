import StellarWallet.Balance.Amount
import StellarWallet.Balance.Line
import StellarWallet.Settings.Wallet

/-!
The balances of a wallet, put together from up to three servers.

The account must be known; the locked amounts and the balance of the contract count as zero when
their servers fail. The contract is asked only after the account has been found or found missing;
the locked amounts are asked for in any case.

The locked amounts are looked up beside the other two, and the first fault in time is the one that
is reported. The journal tells the three lookups one after the other, in the order of their ends.
A server is any function of what was asked before, so this loses nothing but how the requests of the
lookups lie between each other.
-/

namespace StellarWallet

/-- The balance of one asset, as its settings keep it. -/
structure AssetBalance where
  asset : Asset
  available : Number
  locked : Number
  hasTrustline : Bool
  settings : AssetSettings
  total : Number
  add_eq : available.add locked = .ok total
  deriving DecidableEq

namespace AssetBalance

/-- A balance of two numbers whose sum exists. -/
def ofNumbers (asset : Asset) (settings : AssetSettings) (available locked : Number)
    (hasTrustline : Bool) : Except ArithmeticFault AssetBalance :=
  match h : available.add locked with
  | .ok total => .ok ⟨asset, available, locked, hasTrustline, settings, total, h⟩
  | .error e => .error e

/-- A balance of two amounts. -/
def ofAmounts (asset : Asset) (settings : AssetSettings) (available locked : Binary64)
    (hasTrustline : Bool) : AssetBalance :=
  ⟨asset, .real available, .real locked, hasTrustline, settings, .real (available.add locked), rfl⟩

def optionalText : Option String → Value
  | some s => .text s
  | none => .null

/-- A balance as an object. -/
def toValue (b : AssetBalance) : Value :=
  .object [
    ("asset", .text (Vocabulary.name b.asset)),
    ("available", .number b.available),
    ("locked", .number b.locked),
    ("total", .number b.total),
    ("hasTrustline", .bool b.hasTrustline),
    ("source", .text (Vocabulary.name b.settings.source)),
    ("issuer", optionalText b.settings.issuer),
    ("contractId", optionalText b.settings.contract)]

end AssetBalance

/-- The balances of all assets. -/
abbrev WalletBalances := Asset → AssetBalance

namespace WalletBalances

def part : String := "features.balances.service"

/-- What an unknown account is reported as. -/
def unavailable : Fault := ⟨.balanceQuery, "Unable to load wallet balances from Horizon."⟩

def toList (balances : WalletBalances) : List AssetBalance := Vocabulary.all.map balances

/-- The balances of a wallet before they are known. -/
def empty (book : AssetBook) : WalletBalances := fun a =>
  .ofAmounts a (book a) (.zero false) (.zero false) (a = .xlm)

/-- The balances as an object by asset. -/
def toValue (balances : WalletBalances) : Value :=
  .object ((Vocabulary.all : List Asset).map fun a => (Vocabulary.name a, (balances a).toValue))

end WalletBalances

namespace WalletSettings

/-- The client of the ledger's server. -/
def ledgerClient (s : WalletSettings) : Client := .ofBase s.horizon s.timeouts s.retry

/-- The client of the servers that are asked once. -/
def serviceClient (s : WalletSettings) : Client := .ofBase s.origin s.timeouts .never

/-- The account of an address, null when there is none. -/
def fetchAccount (s : WalletSettings) (address : String) : Net Fault Value := do
  let account ← (s.ledgerClient.getOptional ("/accounts/" ++ ExplorerLinks.segment address)
    "Fetch Horizon account").outcome
  match account with
  | .error (.network failure) =>
    Net.note WalletBalances.part .error ("Horizon account lookup failed: " ++ failure.message)
    Net.fail WalletBalances.unavailable
  | .error other => Net.fail other.toFault
  | .ok account =>
    if account.isNull then
      Net.note WalletBalances.part .info ("Account " ++ address ++ " is not funded yet")
    return account

/-- The parameters of a request about an address. -/
def addressParameters (address : String) : String × Value :=
  ("params", .object [("address", .text address)])

/-- The value at an optional endpoint, `none` when it is not set or its server fails. -/
def fetchOptional (s : WalletSettings) (endpoint : Option String) (context complaint : String)
    (options : List (String × Value)) : Net Fault (Option Value) :=
  match endpoint.filter (· ≠ "") with
  | none => return none
  | some endpoint => do
    match ← (s.serviceClient.get endpoint context options).outcome with
    | .error (.network failure) =>
      Net.note WalletBalances.part .warning (complaint ++ ", using zero: " ++ failure.message)
      return none
    | .error other => Net.fail other.toFault
    | .ok v => return some v

/-- The locked amounts of an address. -/
def fetchLocked (s : WalletSettings) (address : String) : Net Fault LockedAmounts := do
  let reply ← s.fetchOptional s.escrowEndpoint "Fetch locked balances"
    "Locked balance lookup failed"
    [addressParameters address,
      ("headers", .object [("Content-Type", .text "application/json")])]
  match reply with
  | none => return .zero
  | some v => (Net.ofExcept (LockedAmounts.ofValue v)).mapError ArithmeticFault.toFault

/-- The ARENAX balance of an address in the contract. -/
def fetchContract (s : WalletSettings) (address : String) : Net Fault Binary64 := do
  let reply ← s.fetchOptional s.contractEndpoint "Fetch ARENAX contract balance"
    "ARENAX contract balance lookup failed" [addressParameters address]
  (Net.ofExcept (Amount.ofValue? (reply.bind (·.field? "balance")))).mapError
    ArithmeticFault.toFault

/-- ARENAX is kept in a contract. -/
def isContractSourced (s : WalletSettings) : Bool := (s.assets .arenax).source = .soroban

/-- The balance of the contract if there is one, once it is known how the lookup of the account
ended. -/
def fetchAfterAccount (s : WalletSettings) (address : String) (account : Except Fault Value) :
    Net Fault (Value × Binary64) := do
  let account ← Net.ofExcept account
  if s.isContractSourced then return (account, ← s.fetchContract address)
  else return (account, .zero false)

/-- The amount on a line; zero without a line. -/
def lineAmount (line : Option Value) : Except Fault Binary64 :=
  (Amount.ofValue? (line.bind (·.field? "balance"))).mapError ArithmeticFault.toFault

/-- The balances that three replies give. -/
def balances (s : WalletSettings) (account : Value) (contract : Binary64) (locked : LockedAmounts) :
    Except Fault WalletBalances := do
  let lines ← BalanceLine.ofAccount account
  let xlm ← lineAmount (← BalanceLine.native? lines)
  let usdcLine ← BalanceLine.classic? .usdc (s.assets .usdc).issuer lines
  let usdc ← lineAmount usdcLine
  let (arenax, arenaxTrusted) ←
    if s.isContractSourced then pure (contract, !account.isNull)
    else do
      let line ← BalanceLine.classic? .arenax (s.assets .arenax).issuer lines
      pure (← lineAmount line, line.isSome)
  return fun
    | .xlm => .ofAmounts .xlm (s.assets .xlm) xlm (locked .xlm) true
    | .usdc => .ofAmounts .usdc (s.assets .usdc) usdc (locked .usdc) usdcLine.isSome
    | .arenax => .ofAmounts .arenax (s.assets .arenax) arenax (locked .arenax) arenaxTrusted

/-- What is noted about balances. -/
def balancesMessage (address : String) (balances : WalletBalances) : String :=
  "Balances for " ++ address ++ ": "
    ++ (Value.object (balances.toList.map fun b =>
      (Vocabulary.name b.asset, .number b.total))).literal

/-- The lookups of an address: how those of the account and the contract end, and that of the locked
amounts. A fault among them that comes first in time ends them all. -/
def lookUp (s : WalletSettings) (address : String) :
    Schedule → Net Fault ((Value × Binary64) × LockedAmounts)
  | .last => do
    let account ← (s.fetchAccount address).outcome
    let main ← (s.fetchAfterAccount address account).outcome
    let locked ← (s.fetchLocked address).outcome
    return (← Net.ofExcept main, ← Net.ofExcept locked)
  | .second => do
    let account ← (s.fetchAccount address).outcome
    let locked ← (s.fetchLocked address).outcome
    let main ← (s.fetchAfterAccount address account).outcome
    let _ ← Net.ofExcept account
    let locked ← Net.ofExcept locked
    return (← Net.ofExcept main, locked)
  | .first goesOn => do
    let locked ← (s.fetchLocked address).outcome
    let account ← (s.fetchAccount address).outcome
    -- Nobody waits for the account any more.
    if !goesOn then let _ ← Net.ofExcept locked
    let main ← (s.fetchAfterAccount address account).outcome
    let locked ← Net.ofExcept locked
    return (← Net.ofExcept main, locked)

/-- Asks the servers for the balances of an address. -/
def fetchBalances (s : WalletSettings) (address : String) : Net Fault WalletBalances := do
  let ((account, contract), locked) ← s.lookUp address (← Net.host).schedule
  let balances ← Net.ofExcept (s.balances account contract locked)
  Net.note WalletBalances.part .debug (balancesMessage address balances)
  return balances

end WalletSettings

end StellarWallet
