import StellarWallet.Text.Search

/-!
Numeric host addresses: four decimal octets, or up to eight groups of hexadecimal digits of which
one run may be left out as `::`.
-/

namespace StellarWallet.Host

def isHexDigit (c : Char) : Bool :=
  c.isDigit || ('a' ≤ c && c ≤ 'f') || ('A' ≤ c && c ≤ 'F')

/-- One to three digits for a number below 256, without a zero in front. -/
def isOctet (cs : List Char) : Bool :=
  !cs.isEmpty && cs.all Char.isDigit && cs.length ≤ 3 && (cs = ['0'] || cs.head? ≠ some '0')
    && Nat.ofDigitChars 10 cs 0 ≤ 255

/-- Four octets. -/
def isFourPart (cs : List Char) : Bool :=
  let octets := Text.pieces '.' cs
  octets.length = 4 && octets.all isOctet

def isGroup (cs : List Char) : Bool := !cs.isEmpty && cs.length ≤ 4 && cs.all isHexDigit

/-- The pieces between colons, four octets at the end counted as two groups. -/
def groups? (cs : List Char) : Option (List (List Char)) :=
  let parts := Text.pieces ':' cs
  if parts.length < 3 then none
  else match parts.getLast? with
    | some last =>
      if '.' ∈ last then
        if isFourPart last then some (parts.dropLast ++ [['0'], ['0']]) else none
      else some parts
    | none => none

/-- The groups around the one that is left out; empty ends are part of it. -/
def aroundGap (parts : List (List Char)) (gap : Nat) : Option (List (List Char) × List (List Char)) :=
  let before := parts.take gap
  let after := parts.drop (gap + 1)
  let before? := if before.head? = some [] then if before.length = 1 then some [] else none
    else some before
  let after? := if after.getLast? = some [] then if after.length = 1 then some [] else none
    else some after
  before?.bind fun b => after?.map fun a => (b, a)

/-- The positions of empty groups between the first and the last. -/
def gaps (parts : List (List Char)) : List Nat :=
  ((parts.zipIdx.dropLast).drop 1).filterMap fun (p, i) => if p.isEmpty then some i else none

/-- Groups of hexadecimal digits, without what follows a percent sign. -/
def isGrouped (cs : List Char) : Bool :=
  match groups? cs with
  | none => false
  | some parts =>
    if 9 < parts.length then false
    else match gaps parts with
      | [] => parts.length = 8 && parts.all isGroup
      | [gap] =>
        match aroundGap parts gap with
        | some (b, a) => b.length + a.length < 8 && b.all isGroup && a.all isGroup
        | none => false
      | _ => false

/-- An address of groups, perhaps with a zone after a percent sign. -/
def isSixteenByte (cs : List Char) : Bool :=
  match Text.cut '%' cs with
  | (_, some []) => false
  | (address, some zone) => '%' ∉ zone && isGrouped address
  | (address, none) => isGrouped address

/-- An address of a future version: `v`, a version, a point and more. -/
def isFuture (cs : List Char) : Bool :=
  match cs with
  | 'v' :: r =>
    match r.dropWhile isHexDigit with
    | '.' :: _ :: _ => isHexDigit (r.headD '.')
    | _ => false
  | _ => false

end StellarWallet.Host
