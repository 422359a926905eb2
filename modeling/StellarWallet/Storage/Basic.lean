import StellarWallet.Json.Reader
import StellarWallet.Storage.Directory

/-!
Storages: named slots, each with one text.

A storage keeps its slots in memory or as files of a directory. A file is written under a draft
name and then moved, so it is never half written; reading a file gives its line ends as line feeds.
-/

namespace StellarWallet

namespace SlotFile

/-- A character of a key in the name of its file. -/
def nameChar (c : Char) : Char :=
  if Text.isAlphanumeric c || c = '-' || c = '_' then c else '_'

/-- The key as far as file names can show it. -/
def stem (key : String) : String := String.ofList (key.toList.map nameChar)

def extension : String := ".json"

/-- The file of a key. -/
def name (key : String) : String := stem key ++ extension

/-- The name under which the file of a key is written before it is moved in place. A name that
starts with its only dot has no extension to replace. -/
def draftName (key : String) : String :=
  (if key = "" then extension else stem key) ++ extension ++ ".tmp"

/-- Every line end of a text as a line feed. -/
def unifyLineEnds : List Char → List Char
  | '\r' :: '\n' :: r => '\n' :: unifyLineEnds r
  | '\r' :: r => '\n' :: unifyLineEnds r
  | c :: r => c :: unifyLineEnds r
  | [] => []

/-- The text of a file, if it is one. -/
def text? (content : List UInt8) : Option String :=
  (Utf8.decode content).map fun cs => String.ofList (unifyLineEnds cs)

/-- The text of a key; `none` for a folder, and for a file that is no text. -/
def get (d : Directory) (key : String) : Except Fault (Option String) :=
  if !Directory.fits (name key) then .error Directory.nameTooLong
  else match d.item? (name key) with
    | some (.file content) => .ok (text? content)
    | _ => .ok none

/-- Writes the text of a key; a draft that cannot be moved stays. -/
def set (d : Directory) (key text : String) : Except Fault Unit × Directory :=
  match d.write (draftName key) (Utf8.encode text.toList) with
  | .error fault => (.error fault, d)
  | .ok drafted =>
    match drafted.move (draftName key) (name key) with
    | .error fault => (.error fault, drafted)
    | .ok d => (.ok (), d)

end SlotFile

inductive StorageBackend where
  | memory (slots : List (String × String))
  | files (directory : Directory)

structure Storage where
  backend : StorageBackend
  /-- While there is one, every write is refused with it. -/
  refusal : Option Fault := none
  /-- What reads JSON texts from the slots. -/
  reader : Json.Reader := .standard

namespace Storage

/-- The text of a slot. -/
def get (s : Storage) (key : String) : Except Fault (Option String) :=
  match s.backend with
  | .memory slots => .ok (Fields.lookup key slots)
  | .files d => SlotFile.get d key

/-- Writes the text of a slot. -/
def set (s : Storage) (key text : String) : Except Fault Unit × Storage :=
  match s.refusal with
  | some fault => (.error fault, s)
  | none =>
    match s.backend with
    | .memory slots => (.ok (), { s with backend := .memory (Fields.put key text slots) })
    | .files d =>
      let (outcome, d) := SlotFile.set d key text
      (outcome, { s with backend := .files d })

/-- Removes a slot. -/
def remove (s : Storage) (key : String) : Except Fault Unit × Storage :=
  match s.backend with
  | .memory slots => (.ok (), { s with backend := .memory (Fields.erase key slots) })
  | .files d =>
    match d.remove (SlotFile.name key) with
    | .ok d => (.ok (), { s with backend := .files d })
    | .error fault => (.error fault, s)

/-- The files that are texts, as reading gives them. -/
def texts (s : Storage) : List (String × String) :=
  match s.backend with
  | .memory _ => []
  | .files d => d.filterMap fun (name, e) =>
    match e with
    | .file content => (SlotFile.text? content).map (name, ·)
    | .folder => none

end Storage

end StellarWallet
