import StellarWallet.Value.Basic
import StellarWallet.Number.Numeral

/-!
Reading JSON text.

A number without point and exponent is whole, of at most `Numeral.maxWholeDigits` digits; the three
words for numbers without digits are accepted. A repeated key keeps its first place and its last
value. A list or an object that stands in too many others ends the reading, whatever follows. The
fuel of the readers is the length of the text, which each call reduces.
-/

namespace StellarWallet.Json

open Value

/-- Why a text is not read. -/
inductive ReadFault where
  | malformed
  /-- What stands in too many lists and objects: an `array` or an `object`. -/
  | tooDeep (what : String)
  deriving DecidableEq, Repr

/-- What a reader is bounded by. -/
structure Reader where
  /-- How many lists and objects may stand in each other. -/
  depth : Nat := 980
  two_le_depth : 2 ≤ depth := by decide
  /-- What stands for half a pair of units, which is no character. -/
  half : Nat → Char := fun _ => Char.ofNat 0xFFFD

/-- The reader that is used where none is asked for. -/
def Reader.standard : Reader := {}

def isJsonBlank (c : Char) : Bool := c = ' ' || c = '\t' || c = '\n' || c = '\r'

def skipBlanks (cs : List Char) : List Char := cs.dropWhile isJsonBlank

def hexValue? (c : Char) : Option Nat :=
  if '0' ≤ c ∧ c ≤ '9' then some (c.toNat - '0'.toNat)
  else if 'a' ≤ c ∧ c ≤ 'f' then some (c.toNat - 'a'.toNat + 10)
  else if 'A' ≤ c ∧ c ≤ 'F' then some (c.toNat - 'A'.toNat + 10)
  else none

def unitValue? (a b c d : Char) : Option Nat := do
  return ((← hexValue? a) * 16 + (← hexValue? b)) * 256 + (← hexValue? c) * 16 + (← hexValue? d)

/-- The character of a one-letter escape. -/
def escaped? : Char → Option Nat
  | '"' => some 34
  | '\\' => some 92
  | '/' => some 47
  | 'b' => some 8
  | 'f' => some 12
  | 'n' => some 10
  | 'r' => some 13
  | 't' => some 9
  | _ => none

/-- The code points and units of a string up to its closing quote, and the rest of the text. -/
def readUnits : List Char → Option (List Nat × List Char)
  | [] => none
  | '"' :: r => some ([], r)
  | '\\' :: 'u' :: a :: b :: c :: d :: r => do
    let n ← unitValue? a b c d
    let (ns, rest) ← readUnits r
    return (n :: ns, rest)
  | '\\' :: e :: r => do
    let n ← escaped? e
    let (ns, rest) ← readUnits r
    return (n :: ns, rest)
  | c :: r =>
    if c.toNat < 32 then none
    else do
      let (ns, rest) ← readUnits r
      return (c.toNat :: ns, rest)

def isHighUnit (n : Nat) : Bool := 0xD800 ≤ n && n < 0xDC00

def isLowUnit (n : Nat) : Bool := 0xDC00 ≤ n && n < 0xE000

/-- The character of a code point, or what stands for half a pair. -/
def Reader.charOf (reader : Reader) (n : Nat) : Char :=
  if n.isValidChar then Char.ofNat n else reader.half n

/-- The characters of a sequence of code points and units. -/
def Reader.joinUnits (reader : Reader) : List Nat → List Char
  | [] => []
  | [n] => [reader.charOf n]
  | n :: m :: r =>
    if isHighUnit n && isLowUnit m then
      reader.charOf (0x10000 + (n - 0xD800) * 1024 + (m - 0xDC00)) :: reader.joinUnits r
    else reader.charOf n :: reader.joinUnits (m :: r)

/-- A string after its opening quote. -/
def Reader.readString (reader : Reader) (cs : List Char) : Except ReadFault (String × List Char) :=
  match readUnits cs with
  | some (ns, rest) => .ok (String.ofList (reader.joinUnits ns), rest)
  | none => .error .malformed

/-- The digits of the whole part of a number: a lone zero, or digits that do not start with one. -/
def readWhole (cs : List Char) : Option (Nat × Nat × List Char) :=
  match cs with
  | '0' :: r => some (0, 1, r)
  | c :: _ => if c.isDigit then some (Numeral.takeDigits cs) else none
  | [] => none

/-- A number; a point without digits after it is not part of it. -/
def readNumber (cs : List Char) : Option (Number × List Char) := do
  let (negative, cs) := match cs with
    | '-' :: r => (true, r)
    | r => (false, r)
  let (whole, count, rest) ← readWhole cs
  let (part, places, rest) := match Numeral.takePlaces rest with
    | some (n, k + 1, r) => (n, k + 1, r)
    | _ => (0, 0, rest)
  let (e, rest') := Numeral.takeExponent rest
  if places = 0 ∧ rest'.length = rest.length then
    if count ≤ Numeral.maxWholeDigits then
      return (.whole (if negative then -(whole : Int) else whole), rest)
    else none
  else
    let n : Numeral := ⟨negative, whole * tenTo places + part, count + places, e - places⟩
    return (.real n.toBinary64, rest')

/-- The words of the format and their values. -/
def words : List (List Char × Value) := [
  ("null".toList, .null), ("true".toList, .bool true), ("false".toList, .bool false),
  ("NaN".toList, .number (.real .nan)),
  ("Infinity".toList, .number (.real (.infinite false))),
  ("-Infinity".toList, .number (.real (.infinite true)))]

/-- A word at the start of a text. -/
def readWord (cs : List Char) : Option (Value × List Char) :=
  words.findSome? fun (w, v) => (w.isPrefixOf? cs).map fun rest => (v, rest)

/-- A word or a number at the start of a text. -/
def readScalar (cs : List Char) : Except ReadFault (Value × List Char) :=
  match readWord cs with
  | some found => .ok found
  | none =>
    match readNumber cs with
    | some (n, rest) => .ok (.number n, rest)
    | none => .error .malformed

namespace Reader

variable (reader : Reader)

mutual
/-- A value at the start of a text without blanks before it; `room` more lists and objects may stand
in each other there. -/
def readValue : (fuel room : Nat) → List Char → Except ReadFault (Value × List Char)
  | 0, _, _ => .error .malformed
  | fuel + 1, room, cs =>
    match cs with
    | '"' :: r => (reader.readString r).map fun (s, rest) => (.text s, rest)
    | '[' :: r =>
      match room with
      | 0 => .error (.tooDeep "array")
      | room + 1 =>
        match skipBlanks r with
        | ']' :: rest => .ok (.list [], rest)
        | r => (readItems fuel room r).map fun (vs, rest) => (.list vs, rest)
    | '{' :: r =>
      match room with
      | 0 => .error (.tooDeep "object")
      | room + 1 =>
        match skipBlanks r with
        | '}' :: rest => .ok (.object [], rest)
        | r => (readFields fuel room [] r).map fun (fs, rest) => (.object fs, rest)
    | cs => readScalar cs

/-- The items of a list up to its closing bracket. -/
def readItems : (fuel room : Nat) → List Char → Except ReadFault (List Value × List Char)
  | 0, _, _ => .error .malformed
  | fuel + 1, room, cs => do
    let (v, rest) ← readValue fuel room cs
    match skipBlanks rest with
    | ']' :: r => return ([v], r)
    | ',' :: r =>
      let (vs, rest) ← readItems fuel room (skipBlanks r)
      return (v :: vs, rest)
    | _ => .error .malformed

/-- The fields of an object up to its closing brace, added to those before them. -/
def readFields : (fuel room : Nat) → List (String × Value) → List Char →
    Except ReadFault (List (String × Value) × List Char)
  | 0, _, _, _ => .error .malformed
  | fuel + 1, room, fields, cs =>
    match cs with
    | '"' :: r => do
      let (k, rest) ← reader.readString r
      match skipBlanks rest with
      | ':' :: r =>
        let (v, rest) ← readValue fuel room (skipBlanks r)
        match skipBlanks rest with
        | '}' :: r => return (Fields.put k v fields, r)
        | ',' :: r => readFields fuel room (Fields.put k v fields) (skipBlanks r)
        | _ => .error .malformed
      | _ => .error .malformed
    | _ => .error .malformed
end

/-- The value of a JSON text. -/
def decode (cs : List Char) : Except ReadFault Value :=
  match reader.readValue (2 * cs.length + 2) reader.depth (skipBlanks cs) with
  | .ok (v, rest) => if (skipBlanks rest).isEmpty then .ok v else .error .malformed
  | .error fault => .error fault

def read (s : String) : Except ReadFault Value := reader.decode s.toList

/-- The value of a text that is read. -/
def read? (s : String) : Option Value := (reader.read s).toOption

end Reader

end StellarWallet.Json
