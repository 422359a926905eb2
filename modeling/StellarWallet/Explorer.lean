import StellarWallet.Failure.Fault
import StellarWallet.Text.Blank
import StellarWallet.Url.Authority
import StellarWallet.Url.Percent
import StellarWallet.Vocabulary

/-!
Links to a block explorer.

Each kind of transaction has a base, an absolute link of the web; a transaction's link is the base
without slashes at its end, a slash, and the hash as one percent-encoded segment.
-/

namespace StellarWallet

/-- Why a base is refused. -/
inductive ExplorerFault where
  /-- Not an absolute link of the web. -/
  | notAbsolute (title base : String)
  | authority (fault : AuthorityFault)
  deriving DecidableEq, Repr

def ExplorerFault.message : ExplorerFault → String
  | .notAbsolute title base =>
    title ++ " must be an absolute http(s) URL, got " ++ Text.quoted base
  | .authority fault => fault.message

/-- A base that is no link is a fault of the configuration; an odd authority is a malformed
value. -/
def ExplorerFault.toFault (f : ExplorerFault) : Fault :=
  match f with
  | .notAbsolute .. => ⟨.configuration, f.message⟩
  | .authority _ => ⟨.invalidValue, f.message⟩

/-- The text without slashes at its end. -/
def trimSlashes (s : String) : String := String.ofList (Text.dropEndWhile (· = '/') s.toList)

structure ExplorerLinks where
  classic : String
  soroban : String
  deriving DecidableEq, Repr

namespace ExplorerLinks

/-- Checks a base and drops the slashes at its end. -/
def checkBase (title base : String) : Except ExplorerFault String :=
  match Authority.split base with
  | .error fault => .error (.authority fault)
  | .ok (scheme, authority) =>
    if (scheme = "http".toList ∨ scheme = "https".toList) ∧ authority ≠ [] then
      .ok (trimSlashes base)
    else .error (.notAbsolute title base)

/-- The links over two bases. -/
def ofBases (classic soroban : String) : Except ExplorerFault ExplorerLinks := do
  let classic ← checkBase "Stellar explorer base" classic
  let soroban ← checkBase "Soroban explorer base" soroban
  return ⟨classic, soroban⟩

def base (links : ExplorerLinks) : TxKind → String
  | .classic => links.classic
  | .soroban => links.soroban

/-- A text as one segment of a link. -/
def segment (s : String) : String := String.ofList (Percent.encode s.toList)

/-- The link of a transaction. -/
def link (links : ExplorerLinks) (kind : TxKind) (hash : String) : String :=
  links.base kind ++ "/" ++ segment hash

end ExplorerLinks

end StellarWallet
