import StellarWallet.Failure.Fault
import StellarWallet.Value.Display

/-!
The fixed vocabularies of the wallet: networks, signers, assets, and what a transaction is and how
far it has come. Each has one name per member, and `ofValue` reads a member from its name.
-/

namespace StellarWallet

inductive Network where
  | testnet
  | mainnet
  deriving DecidableEq, Repr

inductive Signer where
  | freighter
  | albedo
  deriving DecidableEq, Repr

inductive Asset where
  | xlm
  | usdc
  | arenax
  deriving DecidableEq, Repr

/-- Where the balance of an asset is kept. -/
inductive AssetSource where
  | native
  | classic
  | soroban
  deriving DecidableEq, Repr

inductive TxKind where
  | classic
  | soroban
  deriving DecidableEq, Repr

inductive TxDirection where
  | deposit
  | withdraw
  deriving DecidableEq, Repr

inductive TxStatus where
  | pending
  | success
  | failed
  deriving DecidableEq, Repr

inductive TxPhase where
  | signing
  | submitted
  | confirmed
  deriving DecidableEq, Repr

/-- A vocabulary: finitely many members with distinct names, under a title. -/
class Vocabulary (α : Type) where
  title : String
  all : List α
  name : α → String

/-- A value that names no member of a vocabulary. -/
structure UnknownName where
  value : Value
  title : String

def UnknownName.toFault (u : UnknownName) : Fault :=
  ⟨.invalidValue, u.value.literal ++ " is not a valid " ++ u.title⟩

namespace Vocabulary

/-- The member with a name. -/
def ofName? (α : Type) [Vocabulary α] (s : String) : Option α :=
  (all : List α).find? fun a => name a = s

/-- The member that a value names. -/
def ofValue (α : Type) [Vocabulary α] (v : Value) : Except UnknownName α :=
  match v.text?.bind (ofName? α) with
  | some a => .ok a
  | none => .error ⟨v, title α⟩

/-- The member that a value names, or the fault of naming none. -/
def read (α : Type) [Vocabulary α] (v : Value) : Except Fault α :=
  (ofValue α v).mapError UnknownName.toFault

end Vocabulary

instance : Vocabulary Network where
  title := "StellarNetwork"
  all := [.testnet, .mainnet]
  name
    | .testnet => "testnet"
    | .mainnet => "mainnet"

instance : Vocabulary Signer where
  title := "SignerKind"
  all := [.freighter, .albedo]
  name
    | .freighter => "freighter"
    | .albedo => "albedo"

instance : Vocabulary Asset where
  title := "AssetCode"
  all := [.xlm, .usdc, .arenax]
  name
    | .xlm => "XLM"
    | .usdc => "USDC"
    | .arenax => "ARENAX"

instance : Vocabulary AssetSource where
  title := "AssetSource"
  all := [.native, .classic, .soroban]
  name
    | .native => "native"
    | .classic => "classic"
    | .soroban => "soroban"

instance : Vocabulary TxKind where
  title := "TxKind"
  all := [.classic, .soroban]
  name
    | .classic => "classic"
    | .soroban => "soroban"

instance : Vocabulary TxDirection where
  title := "TxDirection"
  all := [.deposit, .withdraw]
  name
    | .deposit => "deposit"
    | .withdraw => "withdraw"

instance : Vocabulary TxStatus where
  title := "TxStatus"
  all := [.pending, .success, .failed]
  name
    | .pending => "pending"
    | .success => "success"
    | .failed => "failed"

instance : Vocabulary TxPhase where
  title := "TxPhase"
  all := [.signing, .submitted, .confirmed]
  name
    | .signing => "signing"
    | .submitted => "submitted"
    | .confirmed => "confirmed"

/-- How far a phase is along the way of a transaction. -/
def TxPhase.rank : TxPhase → Nat
  | .signing => 0
  | .submitted => 1
  | .confirmed => 2

instance : LT TxPhase := ⟨fun a b => a.rank < b.rank⟩

instance : LE TxPhase := ⟨fun a b => a.rank ≤ b.rank⟩

instance (a b : TxPhase) : Decidable (a < b) := inferInstanceAs (Decidable (a.rank < b.rank))

instance (a b : TxPhase) : Decidable (a ≤ b) := inferInstanceAs (Decidable (a.rank ≤ b.rank))

end StellarWallet
