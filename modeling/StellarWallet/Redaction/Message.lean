import StellarWallet.Redaction.Assignment
import StellarWallet.Redaction.Seed
import StellarWallet.Text.Case
import StellarWallet.Text.Search
import StellarWallet.Value.Basic

/-!
Redaction of messages and of log contexts.

A message loses the values of sensitive assignments and all secret seeds; account keys only on
request. In a context the whole value of a sensitive key goes, and texts are redacted in nested
objects and in lists, but not in lists inside lists.
-/

namespace StellarWallet.Redaction

/-- Redacts a text. -/
def redactChars (keepAddresses : Bool) (cs : List Char) : List Char :=
  let cs := passwordAssignment.hide (secretAssignment.hide cs)
  let cs := maskWords (isKeyWord 'S') seedMask cs
  if keepAddresses then cs else maskWords (isKeyWord 'G') addressMask cs

/-- Redacts a message. -/
def redact (keepAddresses : Bool) (s : String) : String :=
  String.ofList (redactChars keepAddresses s.toList)

def sensitiveWords : List (List Char) := ["secret".toList, "password".toList, "seed".toList]

/-- A key of a context whose value is hidden whatever it is. -/
def isSensitiveKey (key : String) : Bool :=
  sensitiveWords.any fun w => Text.hasInfix w (Text.searchForm key.toList)

mutual
/-- Redacts the value of a key that is not sensitive. -/
def redactValue (keepAddresses : Bool) : Value → Value
  | .text s => .text (redact keepAddresses s)
  | .object fields => .object (redactFields keepAddresses fields)
  | .list items => .list (redactItems keepAddresses items)
  | v => v

/-- Redacts the fields of an object. -/
def redactFields (keepAddresses : Bool) : List (String × Value) → List (String × Value)
  | [] => []
  | (k, v) :: r =>
    (k, if isSensitiveKey k then .text (String.ofList mask) else redactValue keepAddresses v)
      :: redactFields keepAddresses r

/-- Redacts the items of a list. -/
def redactItems (keepAddresses : Bool) : List Value → List Value
  | [] => []
  | .text s :: r => .text (redact keepAddresses s) :: redactItems keepAddresses r
  | .object fields :: r =>
    .object (redactFields keepAddresses fields) :: redactItems keepAddresses r
  | v :: r => v :: redactItems keepAddresses r
end

end StellarWallet.Redaction
