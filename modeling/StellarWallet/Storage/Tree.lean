import StellarWallet.Failure.Fault
import StellarWallet.Settings.Path
import StellarWallet.Storage.Directory

/-!
A tree of folders and text files, seen from its root.

Nothing is ever taken out of a tree: folders are made where nothing was, and files grow at their
end.
-/

namespace StellarWallet

/-- The parts of a path. -/
abbrev PathParts := List (List Char)

inductive TreeItem where
  | file (text : String)
  | folder
  deriving DecidableEq, Repr

/-- What is below the root, by the names that lead to it. -/
abbrev FileTree := List (PathParts × TreeItem)

/-- Why a path leads nowhere. -/
inductive TreeFault where
  | missing
  | exists
  | notFolder
  | isFolder
  | nameTooLong
  | nullCharacter
  deriving DecidableEq, Repr

def TreeFault.toFault : TreeFault → Fault
  | .missing => ⟨.missingFile, ""⟩
  | .exists => ⟨.existingFile, ""⟩
  | .notFolder => ⟨.notDirectory, ""⟩
  | .isFolder => Directory.isFolder
  | .nameTooLong => Directory.nameTooLong
  | .nullCharacter => ⟨.invalidValue, "embedded null byte"⟩

namespace FileTree

def empty : FileTree := []

/-- What is at a place. -/
def item? (t : FileTree) : PathParts → Option TreeItem
  | [] => some .folder
  | place => (t.find? (·.1 = place)).map (·.2)

/-- What is at a place is a folder. -/
def checkFolder (t : FileTree) (place : PathParts) : Except TreeFault Unit :=
  match t.item? place with
  | none => .error .missing
  | some (.file _) => .error .notFolder
  | some .folder => .ok ()

/-- The place that parts lead to from another one. All on the way must be folders. -/
def walk (t : FileTree) (place : PathParts) : PathParts → Except TreeFault PathParts
  | [] => .ok place
  | part :: rest => do
    t.checkFolder place
    if !Directory.fits (String.ofList part) then throw .nameTooLong
    t.walk (if part = ['.', '.'] then place.dropLast else place ++ [part]) rest

/-- The parts hold a character that no path may have. -/
def hasNull (parts : PathParts) : Bool := parts.any (·.contains '\x00')

/-- Makes a folder where nothing is. -/
def makeFolder (t : FileTree) (parts : PathParts) : Except TreeFault FileTree := do
  if hasNull parts then throw .nullCharacter
  let place ← t.walk [] parts
  match t.item? place with
  | some _ => throw .exists
  | none => return t ++ [(place, .folder)]

/-- The parts lead to a folder. -/
def isFolder (t : FileTree) (parts : PathParts) : Bool :=
  match t.walk [] parts with
  | .ok place => t.item? place = some .folder
  | .error _ => false

/-- Makes a folder unless there is one. -/
def needFolder (t : FileTree) (parts : PathParts) : Except TreeFault FileTree :=
  match t.makeFolder parts with
  | .ok t => .ok t
  | .error fault => if t.isFolder parts then .ok t else .error fault

/-- Makes the folders that are missing on the way to a place, the place included. The first folders
stay when a later one cannot be made. -/
def needFolders (t : FileTree) (parts : PathParts) : Except TreeFault Unit × FileTree :=
  match t.needFolder parts with
  | .ok t => (.ok (), t)
  | .error .missing =>
    if h : parts = [] then (.error .missing, t)
    else
      have : parts.dropLast.length < parts.length := by
        have := List.length_pos_iff.2 h
        simp only [List.length_dropLast]
        omega
      match t.needFolders parts.dropLast with
      | (.error fault, t) => (.error fault, t)
      | (.ok (), t) =>
        match t.needFolder parts with
        | .ok t => (.ok (), t)
        | .error fault => (.error fault, t)
  | .error fault => (.error fault, t)
termination_by parts.length

/-- Parts with each double dot taking back the part before it. -/
def flatten (parts : PathParts) : PathParts :=
  parts.foldl (fun place part =>
    if part = ['.', '.'] then place.dropLast else place ++ [part]) []

/-- Makes sure that a file is at a place, an empty one if nothing is there. -/
def needFile (t : FileTree) (parts : PathParts) : Except TreeFault (PathParts × FileTree) := do
  let parts := flatten parts
  if hasNull parts then throw .nullCharacter
  let place ← t.walk [] parts
  match t.item? place with
  | some .folder => throw .isFolder
  | some (.file _) => return (place, t)
  | none => return (place, t ++ [(place, .file "")])

/-- Adds a text at the end of a file. -/
def append (t : FileTree) (place : PathParts) (text : String) : FileTree :=
  t.map fun (p, x) => (p, match x with
    | .file old => if p = place then .file (old ++ text) else .file old
    | .folder => .folder)

/-- The files and their texts. -/
def files (t : FileTree) : List (PathParts × String) :=
  t.filterMap fun (p, x) =>
    match x with
    | .file text => some (p, text)
    | .folder => none

end FileTree

end StellarWallet
