import StellarWallet.Json.Printer
import StellarWallet.Json.Reader
import StellarWallet.Log.Record
import StellarWallet.Storage.Basic

/-!
Slots that hold JSON texts.

A slot that is empty, missing or no JSON text reads as null. One whose lists and objects go too deep
is not read at all.
-/

namespace StellarWallet.Storage

/-- The value of a text in a slot. -/
def readText (reader : Json.Reader) (text : String) : Except Fault Value :=
  match reader.read text with
  | .ok v => .ok v
  | .error .malformed => .ok .null
  | .error (.tooDeep what) => .error (.tooDeep what)

/-- The value of a slot. -/
def readJson (s : Storage) (key : String) : Except Fault Value := do
  match ← s.get key with
  | none => return .null
  | some text => readText s.reader text

/-- A slot whose text is neither empty nor JSON. -/
def isUnparsable (s : Storage) (key : String) : Bool :=
  match s.get key with
  | .ok (some text) =>
    match s.reader.read text with
    | .error .malformed => text ≠ ""
    | _ => false
  | _ => false

/-- What reading a slot notes. -/
def readNotes (s : Storage) (key : String) : List LogRecord :=
  if s.isUnparsable key then
    [.note "shared.storage" .warning ("Discarding unparsable value stored under " ++ key)]
  else []

/-- What is said of a value without JSON form. -/
def notJson : Fault := ⟨.wrongType, ""⟩

/-- Writes a value to a slot. -/
def writeJson (s : Storage) (key : String) (v : Value) : Except Fault Unit × Storage :=
  match Json.write? v with
  | some text => s.set key text
  | none => (.error notJson, s)

end StellarWallet.Storage
