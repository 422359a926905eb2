import StellarWallet.Value.Basic

/-!
JSON text of a value, in ASCII.

Fields and items are separated by a comma and a blank, or stand on lines of their own, indented by
two blanks a level. Characters outside the printable ASCII range are escaped, those above the basic
plane as two units.
-/

namespace StellarWallet.Json

open Value

/-- A digit of a `\u` escape. -/
def hexDigit (n : Nat) : Char := Nat.digitChar (n % 16)

/-- The escape of one UTF-16 unit. -/
def unitEscape (n : Nat) : List Char :=
  ['\\', 'u', hexDigit (n / 4096), hexDigit (n / 256), hexDigit (n / 16), hexDigit n]

/-- One character inside a JSON string. -/
def escapeChar (c : Char) : List Char :=
  if c = '"' then ['\\', '"']
  else if c = '\\' then ['\\', '\\']
  else if c = '\n' then ['\\', 'n']
  else if c = '\r' then ['\\', 'r']
  else if c = '\t' then ['\\', 't']
  else if c = Char.ofNat 8 then ['\\', 'b']
  else if c = Char.ofNat 12 then ['\\', 'f']
  else if 32 ≤ c.toNat ∧ c.toNat < 127 then [c]
  else if c.toNat < 0x10000 then unitEscape c.toNat
  else
    let n := c.toNat - 0x10000
    unitEscape (0xD800 + n / 1024) ++ unitEscape (0xDC00 + n % 1024)

/-- A JSON string with its quotes. -/
def quote (s : String) : List Char := '"' :: (s.toList.flatMap escapeChar ++ ['"'])

/-- Numbers in JSON text. -/
def layout : Binary64.Layout := ⟨-4, 16, "NaN", "Infinity"⟩

def numberText : Number → List Char
  | .whole n => (toString n).toList
  | .real x => (layout.render x).toList

def boolText (b : Bool) : List Char := (if b then "true" else "false").toList

mutual
/-- The JSON text of a value on one line; bytes have none and leave nothing. -/
def encode : Value → List Char
  | .null => "null".toList
  | .bool b => boolText b
  | .number n => numberText n
  | .text s => quote s
  | .bytes _ => []
  | .list items => '[' :: (encodeItems items ++ [']'])
  | .object fields => '{' :: (encodeFields fields ++ ['}'])

def encodeItems : List Value → List Char
  | [] => []
  | [v] => encode v
  | v :: r => encode v ++ ", ".toList ++ encodeItems r

def encodeFields : List (String × Value) → List Char
  | [] => []
  | [(k, v)] => quote k ++ ": ".toList ++ encode v
  | (k, v) :: r => quote k ++ ": ".toList ++ encode v ++ ", ".toList ++ encodeFields r
end

/-- A line end and the indentation of a level. -/
def newLine (level : Nat) : List Char := '\n' :: List.replicate (2 * level) ' '

mutual
/-- The JSON text of a value with each item on a line of its own. -/
def encodeLines (level : Nat) : Value → List Char
  | .null => "null".toList
  | .bool b => boolText b
  | .number n => numberText n
  | .text s => quote s
  | .bytes _ => []
  | .list [] => ['[', ']']
  | .list items =>
    '[' :: (newLine (level + 1) ++ encodeItemLines (level + 1) items ++ newLine level ++ [']'])
  | .object [] => ['{', '}']
  | .object fields =>
    '{' :: (newLine (level + 1) ++ encodeFieldLines (level + 1) fields ++ newLine level ++ ['}'])

def encodeItemLines (level : Nat) : List Value → List Char
  | [] => []
  | [v] => encodeLines level v
  | v :: r => encodeLines level v ++ ',' :: newLine level ++ encodeItemLines level r

def encodeFieldLines (level : Nat) : List (String × Value) → List Char
  | [] => []
  | [(k, v)] => quote k ++ ": ".toList ++ encodeLines level v
  | (k, v) :: r =>
    quote k ++ ": ".toList ++ encodeLines level v ++ ',' :: newLine level ++ encodeFieldLines level r
end

/-- The JSON text of a value that has one. -/
def write? (v : Value) : Option String :=
  if v.isJson then some (String.ofList (encode v)) else none

/-- The JSON text of a value, indented. -/
def lines (v : Value) : String := String.ofList (encodeLines 0 v)

end StellarWallet.Json
