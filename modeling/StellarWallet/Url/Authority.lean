import StellarWallet.Text.Quoted
import StellarWallet.Url.Host

/-!
The scheme and the authority of a link, as far as they decide whether a text is an absolute link.

Controls and blanks in front do not count, nor do tabs and line ends anywhere. An authority with
odd brackets, or with a character that a host name lookup would take for a delimiter, is refused.
-/

namespace StellarWallet

/-- Why an authority is refused. -/
inductive AuthorityFault where
  | unpairedBracket
  | futureAddress
  | fourPartAddress
  | noAddress (host : String)
  | disguisedDelimiter (authority : String)
  deriving DecidableEq, Repr

def AuthorityFault.message : AuthorityFault → String
  | .unpairedBracket => "Invalid IPv6 URL"
  | .futureAddress => "IPvFuture address is invalid"
  | .fourPartAddress => "An IPv4 address cannot be in brackets"
  | .noAddress host => Text.quoted host ++ " does not appear to be an IPv4 or IPv6 address"
  | .disguisedDelimiter authority =>
    "netloc '" ++ authority ++ "' contains invalid characters under NFKC normalization"

namespace Authority

/-- Code points that stand for a delimiter, alone or among others, in compatibility forms. -/
def disguises : List Nat := [
  0x2047, 0x2048, 0x2049, 0x2100, 0x2101, 0x2105, 0x2106, 0x2A74, 0xFE13, 0xFE16, 0xFE55, 0xFE56,
  0xFE5F, 0xFE6B, 0xFF03, 0xFF0F, 0xFF1A, 0xFF1F, 0xFF20]

/-- The characters of a link that count. -/
def significant (cs : List Char) : List Char :=
  (cs.dropWhile fun c => c.toNat ≤ 32).filter fun c => c ≠ '\t' && c ≠ '\r' && c ≠ '\n'

def isSchemeChar (c : Char) : Bool :=
  c.isAlphanum || c = '+' || c = '-' || c = '.'

/-- The scheme in small letters, and what follows its colon. -/
def splitScheme (cs : List Char) : List Char × List Char :=
  match Text.cut ':' cs with
  | (scheme, some rest) =>
    if (scheme.head?.any Char.isAlpha) && scheme.all isSchemeChar then
      (scheme.map Char.toLower, rest)
    else ([], cs)
  | (_, none) => ([], cs)

/-- The authority after two slashes. -/
def authorityOf : List Char → List Char
  | '/' :: '/' :: r => r.takeWhile fun c => c ≠ '/' && c ≠ '?' && c ≠ '#'
  | _ => []

/-- The text between the first opening bracket and the closing one after it. -/
def bracketed (cs : List Char) : List Char :=
  (Text.cut ']' ((Text.cut '[' cs).2.getD [])).1

/-- Refuses an address in brackets that is none. -/
def checkBracketed (host : List Char) : Except AuthorityFault Unit :=
  if host.head? = some 'v' then
    if Host.isFuture host then .ok () else .error .futureAddress
  else if Host.isFourPart host then .error .fourPartAddress
  else if Host.isSixteenByte host then .ok ()
  else .error (.noAddress (String.ofList host))

/-- Refuses an authority that cannot name a host. -/
def check (cs : List Char) : Except AuthorityFault Unit := do
  if ('[' ∈ cs) ≠ (']' ∈ cs) then .error .unpairedBracket
  if '[' ∈ cs then checkBracketed (bracketed cs)
  if cs.any (fun c => disguises.contains c.toNat) then
    .error (.disguisedDelimiter (String.ofList cs))

end Authority

/-- Scheme and authority of a link. -/
def Authority.split (s : String) : Except AuthorityFault (List Char × List Char) := do
  let (scheme, rest) := splitScheme (significant s.toList)
  let authority := authorityOf rest
  check authority
  return (scheme, authority)

end StellarWallet
