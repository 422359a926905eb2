import StellarWallet.Failure.Fault
import StellarWallet.Text.Utf8
import StellarWallet.Value.Fields

/-!
A directory of files and folders.

A name may be too long; a folder can be neither read, written nor removed as a file. Writing and
moving replace a whole file.
-/

namespace StellarWallet

/-- What a name of a directory stands for. -/
inductive DirectoryEntry where
  | file (content : List UInt8)
  | folder
  deriving DecidableEq, Repr

abbrev Directory := List (String × DirectoryEntry)

namespace Directory

/-- The most bytes that a name may have. -/
def maxNameBytes : Nat := 255

def fits (name : String) : Bool := (Utf8.encode name.toList).length ≤ maxNameBytes

def nameTooLong : Fault := ⟨.system, ""⟩

def isFolder : Fault := ⟨.isDirectory, ""⟩

def item? (d : Directory) (name : String) : Option DirectoryEntry := Fields.lookup name d

/-- Writes a file. -/
def write (d : Directory) (name : String) (content : List UInt8) : Except Fault Directory :=
  if !fits name then .error nameTooLong
  else if d.item? name = some .folder then .error isFolder
  else .ok (Fields.put name (.file content) d)

/-- Moves a file over another name. -/
def move (d : Directory) (source target : String) : Except Fault Directory :=
  match d.item? source with
  | none => .ok d
  | some e =>
    if !fits target then .error nameTooLong
    else if d.item? target = some .folder then .error isFolder
    else .ok (Fields.put target e (Fields.erase source d))

/-- Removes a file; a name that stands for nothing may be removed as well. -/
def remove (d : Directory) (name : String) : Except Fault Directory :=
  if !fits name then .error nameTooLong
  else if d.item? name = some .folder then .error isFolder
  else .ok (Fields.erase name d)

end Directory

end StellarWallet
