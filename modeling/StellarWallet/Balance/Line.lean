import StellarWallet.Failure.Fault
import StellarWallet.Value.Basic
import StellarWallet.Vocabulary

/-!
The balance lines of an account.

A line shows what it holds: the native asset, or an asset by code and issuer. The first line that
fits counts; a line that is no object stops the search with a fault.
-/

namespace StellarWallet.BalanceLine

/-- A line that has no fields to look at. -/
def unreadable : Fault := ⟨.missingAttribute, ""⟩

/-- Lines that are none. -/
def notAList : Fault := ⟨.wrongType, ""⟩

/-- A field has a text as its value. -/
def hasText (fields : List (String × Value)) (key text : String) : Bool :=
  match Fields.lookup key fields with
  | some (.text s) => s = text
  | _ => false

def isNative (fields : List (String × Value)) : Bool := hasText fields "asset_type" "native"

/-- The line holds the asset of an issuer, or of any issuer when none is set. -/
def isClassic (asset : Asset) (issuer : Option String) (fields : List (String × Value)) : Bool :=
  !isNative fields && hasText fields "asset_code" (Vocabulary.name asset) &&
    match issuer with
    | some i => i = "" || hasText fields "asset_issuer" i
    | none => true

/-- The first line with a property. -/
def find? (p : List (String × Value) → Bool) : List Value → Except Fault (Option Value)
  | [] => .ok none
  | .object fields :: r => if p fields then .ok (some (.object fields)) else find? p r
  | _ :: _ => .error unreadable

def native? : List Value → Except Fault (Option Value) := find? isNative

def classic? (asset : Asset) (issuer : Option String) : List Value → Except Fault (Option Value) :=
  find? (isClassic asset issuer)

/-- The lines of an account; whatever else stands in their place counts as its parts. -/
def ofAccount (account : Value) : Except Fault (List Value) :=
  match account.field? "balances" with
  | none => .ok []
  | some v =>
    if !v.isFilled then .ok []
    else match v with
      | .list lines => .ok lines
      | .object fields => .ok (fields.map fun f => .text f.1)
      | .text s => .ok (s.toList.map fun c => .text (String.singleton c))
      | _ => .error notAList

end StellarWallet.BalanceLine
