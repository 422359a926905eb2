import StellarWallet.Account.Address
import StellarWallet.Storage.Json
import StellarWallet.Time
import StellarWallet.Vocabulary

/-!
The session of a wallet: which key is connected, by which signer, since when.

A slot holds at most one session. Connecting checks the address first and then overwrites the slot;
disconnecting removes it.
-/

namespace StellarWallet

structure WalletSession where
  address : String
  signer : Signer
  network : Network
  connectedAt : String
  deriving DecidableEq, Repr

namespace WalletSession

/-- A session as an object. -/
def toValue (s : WalletSession) : Value :=
  .object [
    ("publicKey", .text s.address),
    ("walletType", .text (Vocabulary.name s.signer)),
    ("network", .text (Vocabulary.name s.network)),
    ("connectedAt", .text s.connectedAt)]

/-- Reads a session. -/
def ofValue? (v : Value) : Option WalletSession := do
  let address ← (← v.field? "publicKey").text?
  let connectedAt ← (← v.field? "connectedAt").text?
  let signer ← Vocabulary.ofName? Signer (← (← v.field? "walletType").text?)
  let network ← Vocabulary.ofName? Network (← (← v.field? "network").text?)
  return { address, signer, network, connectedAt }

theorem ofValue?_toValue (s : WalletSession) : ofValue? s.toValue = some s := by
  obtain ⟨address, signer, network, connectedAt⟩ := s
  cases signer <;> cases network <;> rfl

end WalletSession

/-- The fault of connecting with a malformed address. -/
def AddressFault.toFault (f : AddressFault) : Fault := ⟨.invalidValue, f.message⟩

/-- The slot of the session. -/
structure SessionSlot where
  storage : Storage
  key : String := "arena_wallet_session"

namespace SessionSlot

def part : String := "features.session.service"

/-- The stored session. -/
def current (slot : SessionSlot) : Except Fault (Option WalletSession) :=
  (slot.storage.readJson slot.key).map WalletSession.ofValue?

/-- What looking at the stored session notes. -/
def currentNotes (slot : SessionSlot) : List LogRecord :=
  slot.storage.readNotes slot.key ++
    match slot.current, slot.storage.get slot.key with
    | .ok none, .ok (some text) =>
      if text = "" then []
      else [.note part .warning "Ignoring malformed wallet session in storage"]
    | _, _ => []

/-- Stores a session, or removes the stored one. -/
def write (slot : SessionSlot) (session : Option WalletSession) : Except Fault Unit × SessionSlot :=
  let (outcome, storage) := match session with
    | some s => slot.storage.writeJson slot.key s.toValue
    | none => slot.storage.remove slot.key
  (outcome, { slot with storage })

/-- The session of an address at a time. -/
def sessionOf (network : Network) (now : Instant) (address : String) (signer : Signer) :
    Except Fault WalletSession :=
  match Address.ofText address with
  | .error fault => .error fault.toFault
  | .ok key => .ok ⟨key, signer, network, now.timestamp⟩

/-- Connects an address. -/
def connect (slot : SessionSlot) (network : Network) (now : Instant) (address : String)
    (signer : Signer) : Except Fault WalletSession × SessionSlot :=
  match sessionOf network now address signer with
  | .error fault => (.error fault, slot)
  | .ok session =>
    let (outcome, slot) := slot.write (some session)
    (outcome.map fun _ => session, slot)

/-- What a successful connection notes. -/
def connectNotes (session : WalletSession) : List LogRecord :=
  [.note part .info ("Wallet connected via " ++ Vocabulary.name session.signer ++ " on "
    ++ Vocabulary.name session.network)]

/-- Disconnects. -/
def disconnect (slot : SessionSlot) : Except Fault Unit × SessionSlot := slot.write none

/-- What disconnecting notes. -/
def disconnectNotes : List LogRecord := [.note part .info "Wallet disconnected"]

end SessionSlot

end StellarWallet
