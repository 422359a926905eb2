import Mathlib.Data.Nat.Digits.Defs
import StellarWallet.Proofs.Balance.AnyValue
import StellarWallet.Proofs.Balance.Isolation

/-!
The requests of a query for balances.

The account is asked for once, and again after each pause; the contract at most once, and only after
a lookup of the account that has not failed; the escrow once in any case. Nothing but the lookup of
the account pauses. The contract goes unasked if the escrow has sent what cannot be read while the
account was looked up, for then nobody waits for the account any more.
-/

namespace StellarWallet

namespace WalletSettings

variable (s : WalletSettings) (address : String) (host : Host) (j : Journal)

/-- The account is asked for once, and again after each pause; the last reply decides how the lookup
ends. -/
lemma fetchAccount_ends (hretries : 0 ≤ s.retry.maxRetries) :
    ∃ (events : Journal) (delays : List Number) (ending : Except ClientFault Value),
      (s.fetchAccount address host j).2 = j ++ events ∧
      events.traffic = Journal.repeated (s.accountRequest address) delays ∧
      (delays.length : Int) ≤ s.retry.maxRetries ∧
      (∀ i d, delays[i]? = some d → s.retry.delay (i : Nat) = .ok d) ∧
      s.ledgerClient.EndsWith host true (s.accountRequest address) "Fetch Horizon account"
        (s.retry.maxRetries.toNat - delays.length) delays.length
        (host.server (j.requests ++ List.replicate delays.length (s.accountRequest address))
          (s.accountRequest address)) ending ∧
      (s.fetchAccount address host j).1 = ending.mapError accountFault := by
  obtain ⟨events, delays, hevents, htraffic, hlength, hdelays, hends⟩ :=
    Client.call_attempts (c := s.ledgerClient) hretries host true (s.accountRequest address)
      "Fetch Horizon account" j
  obtain ⟨more, hmore, hrun⟩ := s.fetchAccount_eq address host j
  refine ⟨events ++ more, delays, _, ?_, ?_, hlength, hdelays, hends, ?_⟩
  · rw [hrun, ← List.append_assoc]
    exact congrArg (· ++ more) hevents
  · rw [Journal.traffic_append, htraffic, hmore, List.append_nil]
  · rw [hrun]
    rfl

/-- One request about the address to an endpoint, and no pause; nothing if the endpoint is not
set. -/
structure AsksOnce (endpoint : Option String) (events : Journal) : Prop where
  unset : IsUnset endpoint → events.traffic = []
  asked : ∀ link, endpoint.filter (· ≠ "") = some link → ∃ request : Request,
    events.traffic = [.sent request] ∧ request.method = .get ∧
      request.url = s.serviceClient.url link ∧ addressParameters address ∈ request.options

variable {address} in
/-- Computing something from an optional lookup sends what the lookup sends. -/
lemma bind_fetchOptional_asksOnce {β : Type} {endpoint : Option String}
    {context complaint : String} {options : List (String × Value)} {f : Option Value → Net Fault β}
    (hoptions : addressParameters address ∈ Fields.erase "timeout" options)
    (hf : ∀ v? j', (f v? host j').2 = j') :
    ∃ events, ((s.fetchOptional endpoint context complaint options >>= f) host j).2
        = j ++ events ∧ s.AsksOnce address endpoint events := by
  cases hend : endpoint.filter (· ≠ "") with
  | none =>
    rw [Net.bind_of_ok (s.fetchOptional_of_isUnset host j hend context complaint options), hf]
    refine ⟨[], (List.append_nil j).symm, fun _ => rfl, ?_⟩
    intro link hlink
    cases hend.symm.trans hlink
  | some link =>
    obtain ⟨more, hmore, hrun⟩ :=
      s.fetchOptional_of_isSet host j hend context complaint options
    rw [Net.bind_of_ok hrun, hf, List.append_assoc]
    refine ⟨_, rfl, ?_, ?_⟩
    · intro hunset
      cases hend.symm.trans hunset
    · intro link' hlink
      cases hend.symm.trans hlink
      refine ⟨s.serviceClient.request .get link options, ?_, rfl, rfl, hoptions⟩
      rw [Journal.traffic_append, hmore]
      rfl

lemma fetchLocked_asksOnce : ∃ events, (s.fetchLocked address host j).2 = j ++ events ∧
    s.AsksOnce address s.escrowEndpoint events := by
  refine s.bind_fetchOptional_asksOnce host j (List.mem_cons_self ..) ?_
  rintro (_ | v) j'
  · rfl
  · exact congrArg Prod.snd (Net.mapError_ofExcept _ _ host j')

lemma fetchContract_asksOnce : ∃ events, (s.fetchContract address host j).2 = j ++ events ∧
    s.AsksOnce address s.contractEndpoint events :=
  s.bind_fetchOptional_asksOnce host j (List.mem_cons_self ..)
    fun _ j' => congrArg Prod.snd (Net.mapError_ofExcept _ _ host j')

/-- Whatever comes of the account, nothing but its lookup and that of the contract goes on. -/
lemma fetchAfterAccount_asksOnce (account : Except Fault Value) :
    ∃ events, (s.fetchAfterAccount address account host j).2 = j ++ events ∧
      (s.isContractSourced = true ∧ account.isOk = true →
        s.AsksOnce address s.contractEndpoint events) ∧
      (¬ (s.isContractSourced = true ∧ account.isOk = true) → events.traffic = []) := by
  cases account with
  | error fault =>
    exact ⟨[], (List.append_nil j).symm, fun h => absurd h.2 Bool.false_ne_true, fun _ => rfl⟩
  | ok v =>
    cases hs : s.isContractSourced with
    | false =>
      rw [s.fetchAfterAccount_of_onLedger _ _ _ _ hs]
      exact ⟨[], (List.append_nil j).symm, fun h => absurd h.1 Bool.false_ne_true, fun _ => rfl⟩
    | true =>
      rw [s.fetchAfterAccount_of_sourced _ _ _ _ hs]
      obtain ⟨events, hevents, hasks⟩ := s.fetchContract_asksOnce address host j
      exact ⟨events, hevents, fun _ => hasks, fun h => absurd ⟨rfl, rfl⟩ h⟩

end WalletSettings

namespace BalanceQuery

variable (q : BalanceQuery)

/-- Nobody waits for the account any more when its lookup ends. -/
def IsCutShort : Prop := q.settings.IsCutShort q.address q.host q.past

instance : Decidable q.IsCutShort := inferInstanceAs (Decidable (q.settings.IsCutShort ..))

/-- The contract is asked: ARENAX is kept in it, and the lookup of the account has ended in time and
has not failed. -/
def AsksContract : Prop := q.settings.isContractSourced = true ∧ q.IsKnown ∧ ¬ q.IsCutShort

/-- Three lookups in the order of their ends. -/
def arranged (account contract escrow : Journal) : Journal :=
  match q.host.schedule with
  | .last => account ++ contract ++ escrow
  | .second => account ++ escrow ++ contract
  | .first _ => escrow ++ account ++ contract

/-- What a query does in its three lookups. -/
structure KeepsDiscipline (account contract escrow : Journal) : Prop where
  /-- The account is asked for once, and again after each of at most `maxRetries` pauses. -/
  account_traffic : ∃ delays : List Number, (delays.length : Int) ≤ q.settings.retry.maxRetries ∧
    account.traffic = Journal.repeated (q.settings.accountRequest q.address) delays
  account_requests : ∃ n : Nat, 1 ≤ n ∧ (n : Int) ≤ q.settings.retry.maxRetries + 1 ∧
    account.requests = List.replicate n (q.settings.accountRequest q.address)
  contract_asked : q.AsksContract →
    q.settings.AsksOnce q.address q.settings.contractEndpoint contract
  contract_spared : ¬ q.AsksContract → contract.traffic = []
  escrow_asked : q.settings.AsksOnce q.address q.settings.escrowEndpoint escrow
  /-- Only an amount from the escrow that is too large cuts a query short. -/
  cut_short : q.IsCutShort ↔ q.host.schedule = .first false ∧
    ∃ v ∈ q.escrow?, ¬ LockedAmounts.AreCountable v

variable {q}

lemma isKnown_iff (hretries : 0 ≤ q.settings.retry.maxRetries) :
    q.IsKnown ↔ (q.settings.accountRun q.address q.host q.past).1.isOk = true := by
  constructor
  · intro hknown
    rw [hknown.accountRun_eq]
    rfl
  · intro hok
    obtain ⟨events, delays, ending, hevents, htraffic, -, -, hends, hresult⟩ :=
      q.settings.fetchAccount_ends q.address q.host
        (q.settings.accountStart q.address q.host q.past) hretries
    rw [WalletSettings.accountRun, hresult] at hok
    cases hending : ending with
    | error e =>
      rw [hending] at hok
      cases hok
    | ok w =>
      exact ⟨_, Net.lastReply_of_repeated hevents htraffic,
        Client.value_eq_ok_iff.1 ⟨w, hends.value_eq_ok hending⟩⟩

lemma isOk_lockedOf {v? : Option Value} :
    (WalletSettings.lockedOf v?).isOk = false ↔ ∃ v ∈ v?, ¬ LockedAmounts.AreCountable v := by
  by_cases h : ∀ v ∈ v?, LockedAmounts.AreCountable v
  · rw [WalletSettings.lockedOf_eq h]
    exact ⟨nofun, fun ⟨v, hv, hlarge⟩ => absurd (h v hv) hlarge⟩
  · rw [WalletSettings.lockedOf_of_not_areCountable h]
    exact ⟨fun _ => by simpa using h, fun _ => rfl⟩

lemma isCutShort_iff : q.IsCutShort ↔ q.host.schedule = .first false ∧
    ∃ v ∈ q.escrow?, ¬ LockedAmounts.AreCountable v := by
  rw [IsCutShort, WalletSettings.IsCutShort, escrowRun_eq, isOk_lockedOf]

/-- The lookups follow each other in the order of their ends; one that is not started leaves
nothing. -/
lemma lookUpEnd_eq {account contract escrow : Journal}
    (haccount : (q.settings.accountRun q.address q.host q.past).2
      = q.settings.accountStart q.address q.host q.past ++ account)
    (hcontract : (q.settings.contractRun q.address q.host q.past).2
      = q.settings.contractStart q.address q.host q.past ++ contract)
    (hescrow : (q.settings.escrowRun q.address q.host q.past).2
      = q.settings.escrowStart q.address q.host q.past ++ escrow) :
    q.settings.lookUpEnd q.address q.host q.past
      = q.past ++ q.arranged account (if q.IsCutShort then [] else contract) escrow := by
  rw [WalletSettings.lookUpEnd, arranged]
  change (if q.IsCutShort then _ else _) = _
  cases hs : q.host.schedule with
  | last =>
    have hwhole : ¬ q.IsCutShort :=
      WalletSettings.not_isCutShort (by rw [hs]; exact Schedule.noConfusion)
    rw [WalletSettings.accountStart, hs] at haccount
    rw [WalletSettings.contractStart, hs] at hcontract
    rw [WalletSettings.escrowStart, hs] at hescrow
    rw [if_neg hwhole, if_neg hwhole, if_pos rfl, hescrow, hcontract, haccount]
    simp only [List.append_assoc]
  | second =>
    have hwhole : ¬ q.IsCutShort :=
      WalletSettings.not_isCutShort (by rw [hs]; exact Schedule.noConfusion)
    have hstart : q.settings.contractStart q.address q.host q.past
        = (q.settings.escrowRun q.address q.host q.past).2 := by
      rw [WalletSettings.contractStart, WalletSettings.escrowRun, WalletSettings.escrowStart, hs]
    rw [WalletSettings.accountStart, hs] at haccount
    rw [WalletSettings.escrowStart, hs] at hescrow
    rw [if_neg hwhole, if_neg hwhole, if_neg Schedule.noConfusion, hcontract, hstart, hescrow,
      haccount]
    simp only [List.append_assoc]
  | first goesOn =>
    have hstart : q.settings.accountStart q.address q.host q.past
        = (q.settings.escrowRun q.address q.host q.past).2 := by
      rw [WalletSettings.accountStart, WalletSettings.escrowRun, WalletSettings.escrowStart, hs]
    rw [WalletSettings.contractStart, hs] at hcontract
    rw [WalletSettings.escrowStart, hs] at hescrow
    have hfound : (q.settings.accountRun q.address q.host q.past).2
        = q.past ++ escrow ++ account := by
      rw [haccount, hstart, hescrow]
    by_cases hshort : q.IsCutShort
    · rw [if_pos hshort, if_pos hshort, hfound]
      simp only [List.append_assoc, List.append_nil]
    · rw [if_neg hshort, if_neg hshort, if_neg Schedule.noConfusion, hcontract, hfound]
      simp only [List.append_assoc]

lemma exists_keepsDiscipline (hretries : 0 ≤ q.settings.retry.maxRetries) :
    ∃ account contract escrow more,
      (q.settings.fetchBalances q.address q.host q.past).2
        = q.past ++ q.arranged account contract escrow ++ more ∧ more.traffic = [] ∧
      q.KeepsDiscipline account contract escrow := by
  obtain ⟨account, delays, -, haccount, htraffic, hlength, -⟩ := q.settings.fetchAccount_ends
    q.address q.host (q.settings.accountStart q.address q.host q.past) hretries
  obtain ⟨contract, hcontract, hasks, hspares⟩ := q.settings.fetchAfterAccount_asksOnce q.address
    q.host (q.settings.contractStart q.address q.host q.past)
    (q.settings.accountRun q.address q.host q.past).1
  obtain ⟨escrow, hescrow, hasked⟩ := q.settings.fetchLocked_asksOnce q.address q.host
    (q.settings.escrowStart q.address q.host q.past)
  obtain ⟨more, hmore, hrun⟩ := q.settings.fetchBalances_eq q.address q.host q.past
  rw [← isKnown_iff hretries] at hasks hspares
  refine ⟨account, if q.IsCutShort then [] else contract, escrow, more, ?_, hmore, ?_⟩
  · rw [hrun, ← lookUpEnd_eq haccount hcontract hescrow]
  constructor
  case account_traffic => exact ⟨delays, hlength, htraffic⟩
  case account_requests =>
    exact ⟨delays.length + 1, by omega, by omega, Journal.requests_of_traffic _ _ htraffic⟩
  case contract_asked =>
    intro ⟨hsourced, hknown, hwhole⟩
    rw [if_neg hwhole]
    exact hasks ⟨hsourced, hknown⟩
  case contract_spared =>
    intro hspared
    by_cases hshort : q.IsCutShort
    · rw [if_pos hshort]
      rfl
    · rw [if_neg hshort]
      exact hspares fun ⟨hsourced, hknown⟩ => hspared ⟨hsourced, hknown, hshort⟩
  case escrow_asked => exact hasked
  case cut_short => exact isCutShort_iff

/-- **The requests of a query.** Whatever the servers do and whichever of the lookups ends first, a
query looks up the account, then the contract if it has to, and what is locked besides, and each
lookup keeps to its requests. -/
theorem query_keeps_discipline (hretries : 0 ≤ q.settings.retry.maxRetries) :
    ∃ account contract escrow more,
      (q.settings.fetchBalances q.address q.host q.past).2
        = q.past ++ q.arranged account contract escrow ++ more ∧ more.traffic = [] ∧
      q.KeepsDiscipline account contract escrow :=
  exists_keepsDiscipline hretries

/-- The ledger, whose link ends with slashes, is busy at first and then has no such account; the
contract and the escrow are asked all the same. -/
theorem query_of_missing_account_asks_all :
    let q : BalanceQuery := {
      settings := { WalletSettings.ofNetwork .testnet with
        horizon := "https://ledger.test//"
        escrowEndpoint := some "https://escrow.test/locked"
        contractEndpoint := some "/arenax"
        assets := .ofIssuers none none (some "C1") }
      address := "G 1"
      host := { server := Route.server [⟨"https://ledger.test/accounts/G%201",
        [.answer 503 "busy", .answer 404 ""]⟩] }
      past := [] }
    ∃ account contract escrow more,
      (q.settings.fetchBalances q.address q.host q.past).2
        = account ++ contract ++ escrow ++ more ∧
      (∃ n : Nat, 1 ≤ n ∧ n ≤ 3 ∧ account.requests = List.replicate n
        ⟨.get, "https://ledger.test/accounts/G%201", ({} : Timeouts).toValue, []⟩) ∧
      (∃ request : Request, contract.traffic = [.sent request] ∧
        request.url = "http://localhost/arenax" ∧
        ("params", .object [("address", .text "G 1")]) ∈ request.options) ∧
      ∃ request : Request, escrow.traffic = [.sent request] ∧
        request.url = "https://escrow.test/locked" ∧
        ("params", .object [("address", .text "G 1")]) ∈ request.options := by
  intro q
  have hknown : q.IsKnown := by
    have hreply : q.accountReply = some (.answer 404 "") := by decide +kernel
    exact ⟨_, hreply, Or.inl ⟨"", none, rfl⟩⟩
  obtain ⟨account, contract, escrow, more, hrun, -, hdiscipline⟩ :=
    query_keeps_discipline (q := q) (by decide)
  obtain ⟨n, hpos, hle, hrequests⟩ := hdiscipline.account_requests
  have hmax : q.settings.retry.maxRetries + 1 = 3 := rfl
  have hlink : trimSlashes "https://ledger.test//" ++ "/accounts/" ++ ExplorerLinks.segment "G 1"
      = "https://ledger.test/accounts/G%201" := by decide +kernel
  have hrequest : q.settings.accountRequest q.address
      = ⟨.get, "https://ledger.test/accounts/G%201", ({} : Timeouts).toValue, []⟩ :=
    congrArg (fun link => (⟨.get, link, ({} : Timeouts).toValue, []⟩ : Request)) hlink
  obtain ⟨asked, hasked, -, hurl, hparams⟩ :=
    (hdiscipline.contract_asked ⟨rfl, hknown, fun h => nomatch h.1⟩).asked "/arenax" rfl
  obtain ⟨locked, hlocked, -, hurl', hparams'⟩ :=
    hdiscipline.escrow_asked.asked "https://escrow.test/locked" rfl
  have hcontract : q.settings.serviceClient.url "/arenax" = "http://localhost/arenax" := by
    decide +kernel
  have hescrow : q.settings.serviceClient.url "https://escrow.test/locked"
      = "https://escrow.test/locked" := by
    decide +kernel
  rw [hmax] at hle
  rw [hrequest] at hrequests
  exact ⟨account, contract, escrow, more, hrun, ⟨n, hpos, by omega, hrequests⟩,
    ⟨asked, hasked, hurl.trans hcontract, hparams⟩,
    locked, hlocked, hurl'.trans hescrow, hparams'⟩

/-- A query that is cut short asks the escrow and the ledger, and nothing else. -/
lemma requests_of_isCutShort (hretries : 0 ≤ q.settings.retry.maxRetries) (h : q.IsCutShort) :
    ∀ request ∈ (q.settings.fetchBalances q.address q.host q.past).2.requests,
      request ∈ q.past.requests ∨ request = q.settings.accountRequest q.address ∨
        ∃ link, q.settings.escrowEndpoint.filter (· ≠ "") = some link ∧
          request.url = q.settings.serviceClient.url link := by
  obtain ⟨account, contract, escrow, more, hrun, hmore, hkeeps⟩ := exists_keepsDiscipline hretries
  obtain ⟨n, -, -, haccount⟩ := hkeeps.account_requests
  have hnone {events : Journal} (hevents : events.traffic = []) : events.requests = [] := by
    rw [← Journal.requests_traffic, hevents]
    rfl
  have hcontract := hnone (hkeeps.contract_spared fun hasks => hasks.2.2 h)
  intro request hrequest
  rw [hrun, arranged, h.1, Journal.requests_append, Journal.requests_append,
    Journal.requests_append, Journal.requests_append, hnone hmore, haccount, hcontract,
    List.append_nil, List.append_nil, List.mem_append, List.mem_append, List.mem_replicate,
    ← Journal.requests_traffic escrow] at hrequest
  obtain hpast | hescrow | ⟨-, haccount⟩ := hrequest
  · exact Or.inl hpast
  · refine Or.inr (Or.inr ?_)
    cases hlink : q.settings.escrowEndpoint.filter (· ≠ "") with
    | none =>
      rw [hkeeps.escrow_asked.unset hlink] at hescrow
      cases hescrow
    | some link =>
      obtain ⟨asked, hsent, -, hurl, -⟩ := hkeeps.escrow_asked.asked link hlink
      rw [hsent] at hescrow
      cases List.mem_singleton.1 hescrow
      exact ⟨link, rfl, hurl⟩
  · exact Or.inr (Or.inl haccount)

/-- A query of a wallet whose ARENAX is kept in a contract, about an account that the ledger does
not have. The escrow replies before the ledger does. -/
def ofEarlyEscrow (escrow : Reply) : BalanceQuery where
  settings := contractSettings
  address := "G1"
  host := {
    server := fun _ request =>
      if request.url = "http://localhost/escrow" then escrow else .answer 404 ""
    schedule := .first false }
  past := []

lemma accountReply_ofEarlyEscrow (escrow : Reply) :
    (ofEarlyEscrow escrow).accountReply = some (.answer 404 "") := by
  obtain ⟨events, delays, -, hevents, htraffic, -⟩ := contractSettings.fetchAccount_ends "G1"
    (ofEarlyEscrow escrow).host (contractSettings.accountStart "G1" (ofEarlyEscrow escrow).host [])
    (by decide)
  have hurl : (contractSettings.accountRequest "G1").url ≠ "http://localhost/escrow" := by
    decide +kernel
  have hserver (sent : List Request) : (ofEarlyEscrow escrow).host.server sent
      (contractSettings.accountRequest "G1") = .answer 404 "" := by
    change (if (contractSettings.accountRequest "G1").url = "http://localhost/escrow" then escrow
      else .answer 404 "") = _
    exact if_neg hurl
  exact (Net.lastReply_of_repeated hevents htraffic).trans (congrArg some (hserver _))

lemma escrowReply_ofEarlyEscrow (escrow : Reply) :
    (ofEarlyEscrow escrow).escrowReply = some escrow := by
  obtain ⟨events, hevents, hasked⟩ := contractSettings.fetchLocked_asksOnce "G1"
    (ofEarlyEscrow escrow).host []
  obtain ⟨request, hsent, -, hurl, -⟩ := hasked.asked "/escrow" rfl
  have hescrow : contractSettings.serviceClient.url "/escrow" = "http://localhost/escrow" := by
    decide +kernel
  have hserver (sent : List Request) :
      (ofEarlyEscrow escrow).host.server sent request = escrow := by
    change (if request.url = "http://localhost/escrow" then escrow else .answer 404 "") = _
    exact if_pos (hurl.trans hescrow)
  have htraffic : events.traffic = Journal.repeated request [] := hsent
  have hlast : (contractSettings.fetchLocked "G1").lastReply (ofEarlyEscrow escrow).host []
      = some escrow := by
    rw [Net.lastReply_of_repeated hevents htraffic, hserver]
  exact hlast

section

variable {n : Int} (hlarge : Binary64.bound ≤ n.natAbs) (hshort : Json.IsShort n)
include hlarge hshort

lemma isCutShort_ofEarlyEscrow :
    (ofEarlyEscrow (replyOf (.object [("ARENAX", .number (.whole n))]))).IsCutShort := by
  have hplain : (Value.object [("ARENAX", .number (.whole n))]).IsPlain Json.IsReadable 980 :=
    Value.isPlain_object.2 ⟨by decide, by simp,
      List.forall_mem_singleton.2 (Value.isPlain_number.2 hshort)⟩
  refine isCutShort_iff.2 ⟨rfl, .object [("ARENAX", .number (.whole n))], ?_, fun h => ?_⟩
  · rw [Option.mem_def, escrow?, read, escrowReply_ofEarlyEscrow, Option.bind_some,
      value?_replyOf hplain]
  · exact Amount.isTooLarge_iff.1 ⟨n, rfl, hlarge⟩ (h .arenax)

end

/-- An amount from the escrow that no binary64 holds, and the contract is never asked, although the
lookup of the account does not fail. -/
theorem overflow_of_escrow_spares_contract :
    let q := ofEarlyEscrow (replyOf (.object [("ARENAX", .number (.whole (10 ^ 400)))]))
    q.settings.isContractSourced = true ∧ q.settings.contractEndpoint = some "/arenax" ∧
      q.IsKnown ∧ ∀ request ∈ (q.settings.fetchBalances q.address q.host q.past).2.requests,
        request.url ≠ q.settings.serviceClient.url "/arenax" := by
  have hlarge : Binary64.bound ≤ (10 ^ 400 : Int).natAbs := by decide +kernel
  have hdigits : Json.IsShort (10 ^ 400) :=
    (Nat.toDigits_length 10 _ 401 (by decide) (by decide +kernel)).trans (by decide)
  have hshort := isCutShort_ofEarlyEscrow hlarge hdigits
  generalize replyOf (.object [("ARENAX", .number (.whole (10 ^ 400)))]) = escrow at hshort ⊢
  intro q
  have hknown : q.IsKnown := ⟨_, accountReply_ofEarlyEscrow _, Or.inl ⟨"", none, rfl⟩⟩
  refine ⟨rfl, rfl, hknown, fun request hrequest => ?_⟩
  have hretries : 0 ≤ contractSettings.retry.maxRetries := by decide
  obtain hpast | haccount | ⟨link, hlink, hurl⟩ :=
    requests_of_isCutShort hretries hshort request hrequest
  · cases hpast
  · rw [haccount]
    change (contractSettings.accountRequest "G1").url ≠ contractSettings.serviceClient.url "/arenax"
    decide +kernel
  · cases hlink
    rw [hurl]
    change contractSettings.serviceClient.url "/escrow"
      ≠ contractSettings.serviceClient.url "/arenax"
    decide +kernel

end BalanceQuery

end StellarWallet
