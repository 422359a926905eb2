import StellarWallet.Text.Blank

/-!
Values assigned to sensitive names.

An assignment is a sensitive name, perhaps a quote, a colon or an equals sign among blanks, perhaps
another quote, and a value. `hide` keeps all but the value, which becomes the mask. It reads from
left to right; an assignment starts where the previous one has ended.
-/

namespace StellarWallet.Redaction

/-- What stands in the place of a hidden value. -/
def mask : List Char := "[REDACTED]".toList

/-- `c` is the small letter `w` in either case, or one of the two letters that fold to it. -/
def sameLetter (w c : Char) : Bool :=
  c.toLower = w || (w = 's' && c.toNat = 0x17F) || (w = 'k' && c.toNat = 0x212A)

/-- What follows a word of small letters, in either case, at the start of a text. -/
def dropWord : List Char → List Char → Option (List Char)
  | [], cs => some cs
  | _ :: _, [] => none
  | w :: ws, c :: cs => if sameLetter w c then dropWord ws cs else none

def isQuote (c : Char) : Bool := c = '\'' || c = '"'

/-- Drops one character of `p`, if one is there. -/
def dropOne (p : Char → Bool) : List Char → List Char
  | [] => []
  | c :: cs => if p c then cs else c :: cs

/-- What follows the sign of an assignment, with the blanks and quotes around it. -/
def dropSign (cs : List Char) : Option (List Char) :=
  match (dropOne isQuote cs).dropWhile Text.isBlank with
  | c :: r => if c = ':' || c = '=' then some (dropOne isQuote (r.dropWhile Text.isBlank)) else none
  | [] => none

/-- Names whose values are hidden. -/
structure Assignment where
  /-- What follows the name at the start of a text. -/
  dropName : List Char → Option (List Char)
  /-- A character that the value may hold. -/
  isValue : Char → Bool

/-- A dash or an underscore, or nothing, and then `key` or `seed`. -/
def dropNameSuffix (cs : List Char) : List Char :=
  let body := dropOne (fun c => c = '_' || c = '-') cs
  match dropWord "key".toList body with
  | some r => r
  | none => (dropWord "seed".toList body).getD cs

/-- `secret`, `secret_key`, `secretseed` and their like. -/
def secretAssignment : Assignment where
  dropName cs := (dropWord "secret".toList cs).map dropNameSuffix
  isValue c := !(Text.isBlank c || isQuote c || c = ',' || c = '\x7d')

def passwordAssignment : Assignment where
  dropName := dropWord "password".toList
  isValue c := !(Text.isBlank c || isQuote c)

namespace Assignment

/-- The lengths of an assignment at the start of a text: all before its value, and its value. -/
def match? (a : Assignment) (cs : List Char) : Option (Nat × Nat) :=
  match (a.dropName cs).bind dropSign with
  | none => none
  | some rest =>
    let value := rest.takeWhile a.isValue
    if value.isEmpty then none else some (cs.length - rest.length, value.length)

/-- Hides the values of all assignments after the first `skip` characters, which are left out. -/
def hideAfter (a : Assignment) : (skip : Nat) → List Char → List Char
  | _, [] => []
  | skip + 1, _ :: r => a.hideAfter skip r
  | 0, c :: r =>
    match a.match? (c :: r) with
    | some (head, value) => (c :: r).take head ++ mask ++ a.hideAfter (head + value - 1) r
    | none => c :: a.hideAfter 0 r

/-- The text with the values of all assignments hidden. -/
def hide (a : Assignment) (cs : List Char) : List Char := a.hideAfter 0 cs

end Assignment

end StellarWallet.Redaction
