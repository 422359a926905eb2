import StellarWallet.Balance.Snapshot
import StellarWallet.Session
import StellarWallet.Tracker.Basic

/-!
A wallet: its settings, and the session and the tracked transactions on one storage.

Opening a wallet only reads. Every operation that writes hands on the storage that it leaves.

Some of what can happen to a wallet is left out:

* Texts are made of characters. Half a pair of units, which a JSON text can spell out, is read as a
  character that stands for it, and a text that is encoded never holds one.
* How far lists and objects may stand in each other is one bound for each reader, whatever else is
  going on around it; values that are printed have no such bound.
* Of lookups that run side by side only the order of their ends is told, and that the one that was
  not started when another failed is never started. A request on its way is always answered.
* A pause that lets others run, as between two questions about one transaction, is never refused.
* The fields of a log context have texts as names. What a target says on the error stream about a
  line that it drops is not told.
-/

namespace StellarWallet

structure Wallet where
  settings : WalletSettings
  /-- The transactions; their history holds the storage. -/
  tracker : Tracker

namespace Wallet

/-- Opens a wallet on a storage. -/
def ofStorage (settings : WalletSettings) (storage : Storage) : Except Fault Wallet := do
  let links ← settings.links.mapError ExplorerFault.toFault
  return ⟨settings, { history := ← History.load storage, links }⟩

def storage (w : Wallet) : Storage := w.tracker.history.storage

def withStorage (w : Wallet) (storage : Storage) : Wallet :=
  { w with tracker := { w.tracker with history := { w.tracker.history with storage } } }

def slot (w : Wallet) : SessionSlot := { storage := w.storage }

/-- The stored session. -/
def session (w : Wallet) : Except Fault (Option WalletSession) := w.slot.current

/-- Connects an address. -/
def connect (w : Wallet) (now : Instant) (address : String) (signer : Signer) :
    Except Fault WalletSession × Wallet :=
  let (outcome, slot) := w.slot.connect w.settings.network now address signer
  (outcome, w.withStorage slot.storage)

/-- Disconnects. -/
def disconnect (w : Wallet) : Except Fault Unit × Wallet :=
  let (outcome, slot) := w.slot.disconnect
  (outcome, w.withStorage slot.storage)

/-- Drops the history. -/
def clearHistory (w : Wallet) : Except Fault Unit × Wallet :=
  let (outcome, tracker) := w.tracker.clear
  (outcome, { w with tracker })

/-- Records a transaction that is not tracked. -/
def append (w : Wallet) (d : Draft) (id timestamp : String) : Except Fault HistoryEntry × Wallet :=
  let (outcome, tracker) := w.tracker.append d id timestamp
  (outcome, { w with tracker })

end Wallet

end StellarWallet
