import StellarWallet.History.Entry
import StellarWallet.Storage.Json

/-!
The transaction history: a bounded list of entries, newest first, kept in memory and in a slot.

The slot is read once and written in full after each change. A write that fails like a system or
because of the value is only noted, and the next one brings the slot up to date; any other fault
comes back to the caller, after the list in memory has changed. A limit of zero or more keeps so
many items at the front of a list; a negative one drops so many at its end.
-/

namespace StellarWallet

/-- The items at the front that a limit keeps. -/
def atMost {α : Type} (limit : Int) (items : List α) : List α :=
  if 0 ≤ limit then items.take limit.toNat
  else items.take (items.length - limit.natAbs)

theorem atMost_of_nonneg {α : Type} {limit : Int} (h : 0 ≤ limit) (items : List α) :
    atMost limit items = items.take limit.toNat := if_pos h

theorem length_atMost_le {α : Type} {limit : Int} (h : 0 ≤ limit) (items : List α) :
    ((atMost limit items).length : Int) ≤ limit := by
  simp only [atMost_of_nonneg h, List.length_take]
  omega

theorem atMost_sublist {α : Type} (limit : Int) (items : List α) :
    (atMost limit items).Sublist items := by
  unfold atMost
  split <;> exact List.take_sublist _ _

structure History where
  storage : Storage
  key : String := "arena_wallet_tx_history"
  maxItems : Int := 50
  entries : List HistoryEntry := []

namespace History

def part : String := "features.transactions.history"

/-- The entry of an item of the stored list: none for an item that is no object. -/
def readItem : Value → Option (Except Fault HistoryEntry)
  | .object fields => some (HistoryEntry.ofFields fields)
  | _ => none

/-- The well-formed entries of a stored value. -/
def readEntries : Value → List HistoryEntry
  | .list items => items.filterMap fun v => (readItem v).bind fun
    | .ok e => some e
    | .error _ => none
  | _ => []

/-- Reads the entries of a slot. -/
def load (storage : Storage) (key : String := "arena_wallet_tx_history") (maxItems : Int := 50) :
    Except Fault History := do
  let v ← storage.readJson key
  return { storage, key, maxItems, entries := atMost maxItems (readEntries v) }

/-- What reading a stored value notes. -/
def entryNotes : Value → List LogRecord
  | .list items => items.filterMap fun v => (readItem v).bind fun
    | .ok _ => none
    | .error fault =>
      some (.note part .warning ("Skipping malformed history entry: " ++ fault.message))
  | v =>
    if v.isNull then []
    else [.note part .warning "Stored transaction history is not a list, starting fresh"]

/-- What reading a slot notes. -/
def loadNotes (storage : Storage) (key : String := "arena_wallet_tx_history") : List LogRecord :=
  storage.readNotes key ++
    match storage.readJson key with
    | .ok v => entryNotes v
    | .error _ => []

/-- A fault of a write that is only noted. -/
def isAbsorbed (kind : FaultKind) : Bool :=
  kind.isSystem || kind.isInvalid || kind = .wrongType

/-- The stored form of the entries. -/
def toValue (h : History) : Except Fault Value := .list <$> h.entries.mapM HistoryEntry.toValue

/-- Writes the entries to the slot. -/
def write (h : History) : Except Fault Unit × History :=
  match h.toValue with
  | .error fault => (.error fault, h)
  | .ok v =>
    let (outcome, storage) := h.storage.writeJson h.key v
    (outcome, { h with storage })

/-- Writes the entries to the slot; faults that are only noted do not come back. -/
def save (h : History) : Except Fault Unit × History :=
  match h.write with
  | (.error fault, h) => (if isAbsorbed fault.kind then .ok () else .error fault, h)
  | saved => saved

/-- Puts an entry in front. -/
def push (h : History) (e : HistoryEntry) : Except Fault Unit × History :=
  { h with entries := atMost h.maxItems (e :: h.entries) }.save

/-- Drops all entries; the answer is how many there were. -/
def clear (h : History) : Except Fault Nat × History :=
  let (outcome, emptied) := { h with entries := [] }.save
  (outcome.map fun _ => h.entries.length, emptied)

/-- What dropping so many entries notes. -/
def clearNotes (count : Nat) : List LogRecord :=
  [.note part .info ("Cleared transaction history (" ++ toString count ++ " items)")]

end History

end StellarWallet
