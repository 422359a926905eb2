import StellarWallet.Value.Display
import StellarWallet.Vocabulary

/-!
Entries of the transaction history, and their stored form.

An entry that was read keeps whatever was stored as hash, link and reason; null stands for none.
-/

namespace StellarWallet

/-- The kind of a recorded transaction. Work that reports its own kind may report a foreign one,
which cannot be stored. -/
inductive RecordedKind where
  | known (kind : TxKind)
  | foreign (v : Value)

structure HistoryEntry where
  id : String
  kind : RecordedKind
  direction : TxDirection
  asset : Asset
  amount : Number
  status : TxStatus
  timestamp : String
  phase : Option TxPhase := none
  hash : Value := .null
  link : Value := .null
  reason : Value := .null

namespace RecordedKind

/-- What storing a foreign kind fails with. -/
def unnamed : Fault := ⟨.missingAttribute, ""⟩

/-- The name of a kind. -/
def name : RecordedKind → Except Fault String
  | .known kind => .ok (Vocabulary.name kind)
  | .foreign _ => .error unnamed

end RecordedKind

namespace HistoryEntry

/-- A field that is left out when there is nothing in it. -/
def optional (key : String) (v : Value) : List (String × Value) :=
  if v.isNull then [] else [(key, v)]

/-- The stored form of an entry, with its kind named. -/
def fields (e : HistoryEntry) (kind : String) : List (String × Value) :=
  [("id", .text e.id),
    ("direction", .text (Vocabulary.name e.direction)),
    ("asset", .text (Vocabulary.name e.asset)),
    ("amount", .number e.amount),
    ("kind", .text kind),
    ("status", .text (Vocabulary.name e.status)),
    ("timestamp", .text e.timestamp)]
  ++ optional "phase" ((e.phase.map fun p => Value.text (Vocabulary.name p)).getD .null)
  ++ optional "hash" e.hash ++ optional "explorerUrl" e.link ++ optional "reason" e.reason

/-- The stored form of an entry. -/
def toValue (e : HistoryEntry) : Except Fault Value :=
  e.kind.name.map fun kind => .object (e.fields kind)

/-- The fault of a missing field. -/
def missing (key : String) : Fault := ⟨.missingKey, (Value.text key).literal⟩

/-- A field that must be there. -/
def need (fields : List (String × Value)) (key : String) : Except Fault Value :=
  match Fields.lookup key fields with
  | some v => .ok v
  | none => .error (missing key)

/-- The number of an amount. -/
def readAmount : Value → Except Fault Number
  | .number n => .ok n
  | v => .error ⟨.wrongType, "amount must be numeric, got " ++ v.typeName⟩

/-- A phase that may be missing. -/
def readPhase (v : Value) : Except Fault (Option TxPhase) :=
  if v.isNull then .ok none else some <$> Vocabulary.read TxPhase v

/-- Reads the stored form of an entry. -/
def ofFields (fields : List (String × Value)) : Except Fault HistoryEntry := do
  let field (key : String) : Value := (Fields.lookup key fields).getD .null
  let amount ← readAmount (← need fields "amount")
  let id ← need fields "id"
  let kind ← Vocabulary.read TxKind (← need fields "kind")
  let direction ← Vocabulary.read TxDirection (← need fields "direction")
  let asset ← Vocabulary.read Asset (← need fields "asset")
  let status ← Vocabulary.read TxStatus (← need fields "status")
  let timestamp ← need fields "timestamp"
  let phase ← readPhase (field "phase")
  return {
    id := id.display
    kind := .known kind
    direction, asset, amount, status
    timestamp := timestamp.display
    phase
    hash := field "hash"
    link := field "explorerUrl"
    reason := field "reason" }

end HistoryEntry

end StellarWallet
