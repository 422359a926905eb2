import StellarWallet.Number.Basic
import StellarWallet.Value.Fields

/-!
Values of replies, stored slots and log contexts.

Objects keep their fields in the order of first appearance. `bytes` occurs in log contexts only and
has no JSON form.
-/

namespace StellarWallet

inductive Value where
  | null
  | bool (b : Bool)
  | number (n : Number)
  | text (s : String)
  | bytes (bs : List UInt8)
  | list (items : List Value)
  | object (fields : List (String × Value))

namespace Value

instance : Inhabited Value := ⟨.null⟩

/-- A field of an object; `none` for any other value. -/
def field? (key : String) : Value → Option Value
  | .object fields => Fields.lookup key fields
  | _ => none

def text? : Value → Option String
  | .text s => some s
  | _ => none

def object? : Value → Option (List (String × Value))
  | .object fields => some fields
  | _ => none

/-- Neither null, false, zero nor empty. -/
def isFilled : Value → Bool
  | .null => false
  | .bool b => b
  | .number n => !n.isZero
  | .text s => s ≠ ""
  | .bytes bs => !bs.isEmpty
  | .list items => !items.isEmpty
  | .object fields => !fields.isEmpty

def isNull : Value → Bool
  | .null => true
  | _ => false

mutual
/-- The value has a JSON form. -/
def isJson : Value → Bool
  | .bytes _ => false
  | .list items => areJson items
  | .object fields => fieldsAreJson fields
  | _ => true

def areJson : List Value → Bool
  | [] => true
  | v :: r => v.isJson && areJson r

def fieldsAreJson : List (String × Value) → Bool
  | [] => true
  | (_, v) :: r => v.isJson && fieldsAreJson r
end

end Value

end StellarWallet
