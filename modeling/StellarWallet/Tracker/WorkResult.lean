import StellarWallet.Explorer
import StellarWallet.History.Entry

/-!
What work on a transaction may hand over, and the hash and kind in it.

Work is foreign code: it may report a hash alone, a hash with a kind, an object with fields of
those names, or anything else. A kind that it leaves open is the one it was started with.
-/

namespace StellarWallet

inductive WorkResult where
  | plain (s : String)
  /-- A hash with a member of the vocabulary as its kind, as a record or under names. -/
  | tracked (hash : Value) (kind : Option TxKind)
  | fields (fs : List (String × Value))
  | other (v : Value)

namespace WorkResult

/-- The kind that a field reports: a name is looked up, anything else that is filled is kept. -/
def reportedKind (v : Value) (otherwise : RecordedKind) : Except Fault RecordedKind :=
  match v with
  | .text _ => .known <$> Vocabulary.read TxKind v
  | v => .ok (if v.isFilled then .foreign v else otherwise)

/-- The hash, null when there is none, and the kind. -/
def extract (r : WorkResult) (kind : RecordedKind) : Except Fault (Value × RecordedKind) :=
  let field (fs : List (String × Value)) (key : String) : Value := (Fields.lookup key fs).getD .null
  match r with
  | .plain s => .ok (.text s, kind)
  | .tracked hash reported => .ok (hash, (reported.map RecordedKind.known).getD kind)
  | .fields fs => do return (field fs "hash", ← reportedKind (field fs "kind") kind)
  | .other _ => .ok (.null, kind)

end WorkResult

/-- The link of a transaction; a foreign kind has no base to build one on. -/
def ExplorerLinks.recordedLink (links : ExplorerLinks) (kind : RecordedKind) (hash : String) :
    Except Fault String :=
  match kind with
  | .known kind => .ok (links.link kind hash)
  | .foreign v =>
    match v with
    | .list _ | .object _ => .error ⟨.wrongType, "unhashable type: '" ++ v.typeName ++ "'"⟩
    | v => .error ⟨.missingKey, v.literal⟩

end StellarWallet
