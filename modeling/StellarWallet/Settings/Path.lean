import StellarWallet.Failure.Fault
import StellarWallet.Text.Blank
import StellarWallet.Text.Search

/-!
Paths of directories and files.

A path is a start, which is empty, one slash or exactly two, and a list of parts. Empty parts and
single dots are left out; double dots stay.
-/

namespace StellarWallet

structure Path where
  /-- How many slashes it starts with; at most two. -/
  slashes : Nat
  parts : List (List Char)
  deriving DecidableEq, Repr

namespace Path

/-- The slashes that count at the start of a text: two stay two, more than two are one. -/
def leadingSlashes (cs : List Char) : Nat :=
  match (cs.takeWhile (· = '/')).length with
  | 0 => 0
  | 2 => 2
  | _ => 1

/-- A piece between two slashes that is a part of the path. -/
def isPart (piece : List Char) : Bool := piece ≠ [] && piece ≠ ['.']

/-- Reads a path. -/
def ofText (s : String) : Path :=
  ⟨leadingSlashes s.toList, (Text.pieces '/' s.toList).filter isPart⟩

/-- The text of a path; the empty one is a dot. -/
def text (p : Path) : String :=
  if p.slashes = 0 ∧ p.parts = [] then "."
  else String.ofList (List.replicate p.slashes '/' ++ ['/'].intercalate p.parts)

/-- A path seen from another one. -/
def join (p q : Path) : Path :=
  if q.slashes = 0 then ⟨p.slashes, p.parts ++ q.parts⟩ else q

/-- The failure to find a home directory. -/
def homeless : Fault := ⟨.runtime, "Could not determine home directory."⟩

/-- The home directory as the start of paths: without slashes at its end, at least a slash. -/
def home (setting : String) : Except Fault Path :=
  let cs := Text.dropEndWhile (· = '/') setting.toList
  if cs.head? = some '~' then .error homeless
  else .ok (ofText (if cs = [] then "/" else String.ofList cs))

/-- A path with its home resolved: a tilde as the first part of a relative path stands for it, and
the homes of other users are not known. -/
def expand (homeSetting : String) (p : Path) : Except Fault Path :=
  match p.slashes, p.parts with
  | 0, ('~' :: user) :: rest => do
    if user ≠ [] then .error homeless
    else
      let start ← home homeSetting
      return ⟨start.slashes, start.parts ++ rest⟩
  | _, _ => .ok p

end Path

end StellarWallet
