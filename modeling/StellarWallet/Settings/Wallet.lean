import StellarWallet.Http.Client
import StellarWallet.Settings.Environment
import StellarWallet.Text.Case
import StellarWallet.Vocabulary

/-!
The settings of a wallet: its network and servers, how its assets are kept, and how patient it is.

The defaults depend on the network; the environment may set the links and the issuers.
-/

namespace StellarWallet

/-- How an asset is kept. -/
structure AssetSettings where
  source : AssetSource
  issuer : Option String := none
  contract : Option String := none
  deriving DecidableEq, Repr

/-- The settings of every asset. -/
abbrev AssetBook := Asset → AssetSettings

namespace AssetBook

/-- The text is there and not empty. -/
def isSet (s : Option String) : Bool := s.any (· ≠ "")

/-- The settings of the assets: ARENAX is kept in a contract if it has one and no issuer. -/
def ofIssuers (usdcIssuer arenaxIssuer arenaxContract : Option String) : AssetBook
  | .xlm => { source := .native }
  | .usdc => { source := .classic, issuer := usdcIssuer }
  | .arenax =>
    { source := if isSet arenaxContract && !isSet arenaxIssuer then .soroban else .classic
      issuer := arenaxIssuer
      contract := arenaxContract }

/-- What is said of settings that leave an asset out. -/
def uncovered : Fault := ⟨.configuration, "Asset configuration must cover XLM, USDC and ARENAX"⟩

/-- The settings of a list that covers every asset. -/
def ofList (entries : List (Asset × AssetSettings)) : Except Fault AssetBook :=
  if (Vocabulary.all : List Asset).all fun a => entries.any (·.1 = a) then
    .ok fun a => ((entries.find? (·.1 = a)).map (·.2)).getD { source := .native }
  else .error uncovered

def toList (book : AssetBook) : List (Asset × AssetSettings) :=
  Vocabulary.all.map fun a => (a, book a)

theorem ofList_toList (book : AssetBook) : ofList book.toList = .ok book := by
  have h : (Vocabulary.all : List Asset) = [.xlm, .usdc, .arenax] := rfl
  simp only [ofList, toList, h]
  refine congrArg Except.ok (funext fun a => ?_)
  cases a <;> simp

end AssetBook

/-- How often, and with which pauses, the state of a transaction is asked for. -/
structure ConfirmationPolicy where
  classicAttempts : Int := 24
  notFoundDelay : Number := .real (.ofRatio false 3 2)
  pendingDelay : Number := .real (.ofInt 1)
  sorobanAttempts : Int := 30
  pollDelay : Number := .real (.ofRatio false 6 5)

structure WalletSettings where
  network : Network
  horizon : String
  soroban : String
  classicExplorer : String
  sorobanExplorer : String
  /-- Where locked amounts are asked for. -/
  escrowEndpoint : Option String := none
  /-- Where the ARENAX balance of a contract is asked for. -/
  contractEndpoint : Option String := none
  origin : String := "http://localhost"
  assets : AssetBook := AssetBook.ofIssuers none none none
  directory : Option Path := none
  timeouts : Timeouts := {}
  retry : RetryPolicy := {}
  confirmation : ConfirmationPolicy := {}

/-- The network of a name, by default the test network. -/
def Network.ofName (name : Option String) : Network :=
  let cs := Text.searchForm (name.getD "").toList
  if cs = "mainnet".toList ∨ cs = "public".toList then .mainnet else .testnet

namespace WalletSettings

/-- What a network is called in links of the explorer. -/
def explorerSegment : Network → String
  | .testnet => "testnet"
  | .mainnet => "public"

def explorerBase (network : Network) : String :=
  "https://stellar.expert/explorer/" ++ explorerSegment network ++ "/tx"

/-- The settings of a network. -/
def ofNetwork (network : Network) : WalletSettings :=
  { network
    horizon := match network with
      | .testnet => "https://horizon-testnet.stellar.org"
      | .mainnet => "https://horizon.stellar.org"
    soroban := match network with
      | .testnet => "https://soroban-testnet.stellar.org"
      | .mainnet => "https://soroban-mainnet.stellar.org"
    classicExplorer := explorerBase network
    sorobanExplorer := explorerBase network }

/-- The settings that the environment asks for. -/
def ofEnvironment (env : Environment) : Except Fault WalletSettings := do
  let start := ofNetwork (Network.ofName (env.setting? "NETWORK"))
  let directory ← match env.setting? "DIR" with
    | some s => some <$> (Path.ofText s).expand env.home
    | none => pure none
  return { start with
    horizon := (env.setting? "HORIZON_URL").getD start.horizon
    soroban := (env.setting? "SOROBAN_RPC_URL").getD start.soroban
    classicExplorer := (env.setting? "STELLAR_EXPLORER_BASE_URL").getD start.classicExplorer
    sorobanExplorer := (env.setting? "SOROBAN_EXPLORER_BASE_URL").getD start.sorobanExplorer
    escrowEndpoint := env.setting? "ESCROW_BALANCES_ENDPOINT"
    contractEndpoint := env.setting? "ARENAX_BALANCE_ENDPOINT"
    origin := (env.setting? "ORIGIN").getD start.origin
    assets := AssetBook.ofIssuers (env.setting? "USDC_ISSUER") (env.setting? "ARENAX_ISSUER")
      (env.setting? "ARENAX_CONTRACT_ID")
    directory }

/-- The directory of the stored slots: that of the settings, else the one that the environment
gives. -/
def slotDirectory (s : WalletSettings) (env : Environment) : Except Fault Path :=
  match s.directory with
  | some path => path.expand env.home
  | none => env.storageDirectory none

/-- The links to the explorer. -/
def links (s : WalletSettings) : Except ExplorerFault ExplorerLinks :=
  ExplorerLinks.ofBases s.classicExplorer s.sorobanExplorer

end WalletSettings

end StellarWallet
