import StellarWallet.Proofs.Balance.Amounts
import StellarWallet.Proofs.Http.LastReply

/-!
The lookups behind the balances, each a function of the last reply that it got.

The lookup of the account returns what the ledger describes, or null where it knows no account. The
other two never fail: whatever brings no value counts as zero.
-/

namespace StellarWallet

namespace Net

variable {ε δ α β : Type}

lemma outcome_eq (p : Net ε α) (host : Host) (j : Journal) :
    (p.outcome : Net δ (Except ε α)) host j = (.ok (p host j).1, (p host j).2) := rfl

lemma ofExcept_ok_bind (a : α) (f : α → Net ε β) (host : Host) (j : Journal) :
    (ofExcept (.ok a) >>= f) host j = f a host j := rfl

lemma ofExcept_error_bind (e : ε) (f : α → Net ε β) (host : Host) (j : Journal) :
    (ofExcept (.error e) >>= f) host j = (.error e, j) := rfl

lemma mapError_ofExcept (x : Except ε α) (f : ε → δ) (host : Host) (j : Journal) :
    (ofExcept x).mapError f host j = (x.mapError f, j) := by
  cases x <;> rfl

/-- Computing something from the result of a program adds no reply. -/
lemma lastReply_bind {p : Net ε α} {f : α → Net ε β} {host : Host} {j events : Journal} {a : α}
    (hp : p host j = (.ok a, j ++ events)) (hf : (f a host (j ++ events)).2 = j ++ events) :
    (p >>= f).lastReply host j = p.lastReply host j := by
  have hq : ((p >>= f) host j).2 = j ++ events ++ [] := by
    rw [bind_of_ok hp, hf, List.append_nil]
  exact lastReply_congr (congrArg Prod.snd hp) hq rfl

end Net

namespace WalletSettings

variable (s : WalletSettings) (address : String) (host : Host) (j : Journal)

/-! ### What each lookup makes of its last reply -/

/-- The request for the account of an address. -/
def accountRequest : Request :=
  ⟨.get, trimSlashes s.horizon ++ "/accounts/" ++ ExplorerLinks.segment address, s.timeouts.toValue,
    []⟩

/-- The call behind the lookup of the account. -/
def accountCall : Net ClientFault Value :=
  s.ledgerClient.call true (s.accountRequest address) "Fetch Horizon account"

/-- What the failure of that call is reported as. -/
def accountFault : ClientFault → Fault
  | .network _ => WalletBalances.unavailable
  | other => other.toFault

lemma getOptional_account :
    s.ledgerClient.getOptional ("/accounts/" ++ ExplorerLinks.segment address)
      "Fetch Horizon account" = s.accountCall address := by
  have hhead : ("/accounts/" ++ ExplorerLinks.segment address).toList.head? = some '/' := by
    rw [String.toList_append]
    rfl
  have hurl : s.ledgerClient.url ("/accounts/" ++ ExplorerLinks.segment address)
      = trimSlashes s.horizon ++ "/accounts/" ++ ExplorerLinks.segment address := by
    rw [s.ledgerClient.url_of_head hhead, String.append_assoc]
    rfl
  rw [Client.getOptional, Client.request, hurl]
  rfl

/-- The lookup of the account is that call and a note. -/
lemma fetchAccount_eq :
    ∃ more : Journal, more.traffic = [] ∧ s.fetchAccount address host j
      = ((s.accountCall address host j).1.mapError accountFault,
        (s.accountCall address host j).2 ++ more) := by
  rw [fetchAccount, getOptional_account, Net.bind_of_ok (Net.outcome_eq _ host j)]
  cases (s.accountCall address host j).1 with
  | error e =>
    cases e with
    | network failure => exact ⟨[.noted _], rfl, rfl⟩
    | delay fault => exact ⟨[], rfl, by rw [List.append_nil]; rfl⟩
    | sleep fault => exact ⟨[], rfl, by rw [List.append_nil]; rfl⟩
  | ok account =>
    dsimp only
    cases account.isNull with
    | true => exact ⟨[.noted _], rfl, rfl⟩
    | false => exact ⟨[], rfl, by rw [List.append_nil]; rfl⟩

lemma fetchAccount_spec :
    (∃ events, (s.fetchAccount address host j).2 = j ++ events) ∧
      ∀ reply, (s.fetchAccount address).lastReply host j = some reply →
        (reply.IsMissing → (s.fetchAccount address host j).1 = .ok .null) ∧
        ∀ v, reply.value? host.reader = some v → (s.fetchAccount address host j).1 = .ok v := by
  obtain ⟨⟨events, hevents⟩, hlast⟩ := Client.call_spec s.ledgerClient true
    (s.accountRequest address) "Fetch Horizon account" host j
  obtain ⟨more, hmore, hrun⟩ := s.fetchAccount_eq address host j
  have hsilent : more.requests = [] := by rw [← Journal.requests_traffic, hmore]; rfl
  have hjournal : (s.fetchAccount address host j).2 = j ++ events ++ more := by
    rw [hrun]
    exact congrArg (· ++ more) hevents
  have hresult : ∀ v, (s.accountCall address host j).1 = .ok v →
      (s.fetchAccount address host j).1 = .ok v := by
    intro v hv
    rw [hrun, hv]
    rfl
  refine ⟨⟨events ++ more, by rw [hjournal, List.append_assoc]⟩, ?_⟩
  intro reply hreply
  rw [Net.lastReply_congr hevents hjournal hsilent] at hreply
  exact ⟨fun h => hresult _ (hlast reply _ hreply (Client.value_of_isMissing h)),
    fun v h => hresult _ (hlast reply _ hreply (Client.value_of_value? h true _))⟩

/-- An endpoint that is not set, or empty. -/
def IsUnset (endpoint : Option String) : Prop := endpoint.filter (· ≠ "") = none

lemma fetchOptional_of_isUnset {endpoint : Option String} (h : IsUnset endpoint)
    (context complaint : String) (options : List (String × Value)) :
    s.fetchOptional endpoint context complaint options host j = (.ok none, j) := by
  rw [fetchOptional, h]
  rfl

/-- A lookup at an endpoint that is set sends one request, and its result is what the reply
brings. -/
lemma fetchOptional_of_isSet {endpoint : Option String} {link : String}
    (h : endpoint.filter (· ≠ "") = some link) (context complaint : String)
    (options : List (String × Value)) :
    let request := s.serviceClient.request .get link options
    ∃ more : Journal, more.traffic = [] ∧
      s.fetchOptional endpoint context complaint options host j
        = (.ok ((host.server j.requests request).value? host.reader),
          j ++ [.sent request] ++ more) := by
  intro request
  rw [fetchOptional, h]
  dsimp only
  rw [Net.bind_of_ok (Net.outcome_eq _ host j), Client.get, Client.call_of_never rfl,
    ← Client.toOption_value request.url, Client.answer]
  cases Client.value host.reader false request.url (host.server j.requests request) with
  | ok v => exact ⟨[], rfl, by rw [List.append_nil]; rfl⟩
  | error fault => exact ⟨[.noted _], rfl, rfl⟩

/-- An optional lookup does not fail: its result is what its reply brings. -/
lemma fetchOptional_spec (endpoint : Option String) (context complaint : String)
    (options : List (String × Value)) :
    ∃ events, s.fetchOptional endpoint context complaint options host j
      = (.ok (((s.fetchOptional endpoint context complaint options).lastReply host j).bind
          (Reply.value? host.reader)), j ++ events) := by
  cases hend : endpoint.filter (· ≠ "") with
  | none =>
    have hrun := s.fetchOptional_of_isUnset host j hend context complaint options
    have hsilent : (s.fetchOptional endpoint context complaint options host j).2 = j := by
      rw [hrun]
    exact ⟨[], by rw [Net.lastReply_of_silent hsilent, hrun, List.append_nil]; rfl⟩
  | some link =>
    obtain ⟨more, hmore, hrun⟩ :=
      s.fetchOptional_of_isSet host j hend context complaint options
    rw [List.append_assoc] at hrun
    have htraffic : ([.sent (s.serviceClient.request .get link options)] ++ more : Journal).traffic
        = Journal.repeated (s.serviceClient.request .get link options) [] := by
      rw [Journal.traffic_append, hmore]
      rfl
    have hlast := Net.lastReply_of_repeated (congrArg Prod.snd hrun) htraffic
    rw [hlast, hrun]
    exact ⟨_, by rw [List.length_nil, List.replicate_zero, List.append_nil]; rfl⟩

/-- What is computed from an optional lookup is computed from what its reply brings. -/
lemma bind_fetchOptional {β : Type} {endpoint : Option String} {context complaint : String}
    {options : List (String × Value)} {f : Option Value → Net Fault β}
    {read : Option Value → Except Fault β} (hf : ∀ v? j', f v? host j' = (read v?, j')) :
    ((s.fetchOptional endpoint context complaint options >>= f) host j).1
      = read (((s.fetchOptional endpoint context complaint options >>= f).lastReply host j).bind
          (Reply.value? host.reader)) := by
  obtain ⟨events, hrun⟩ := s.fetchOptional_spec host j endpoint context complaint options
  rw [Net.lastReply_bind hrun (by rw [hf]), Net.bind_of_ok hrun, hf]

lemma lastReply_fetchLocked (h : IsUnset s.escrowEndpoint) :
    (s.fetchLocked address).lastReply host j = none := by
  refine Net.lastReply_of_silent ?_
  rw [fetchLocked, Net.bind_of_ok (s.fetchOptional_of_isUnset host j h _ _ _)]
  rfl

lemma lastReply_fetchContract (h : IsUnset s.contractEndpoint) :
    (s.fetchContract address).lastReply host j = none := by
  refine Net.lastReply_of_silent ?_
  rw [fetchContract, Net.bind_of_ok (s.fetchOptional_of_isUnset host j h _ _ _)]
  rfl

/-- What the body from the escrow tells about an asset. -/
def lockedIn (v? : Option Value) (a : Asset) : Option Value := v?.bind (LockedAmounts.place a)

/-- What the body from the contract tells. -/
def heldIn (v? : Option Value) : Option Value := v?.bind (·.field? "balance")

/-- No number in a body is too large for binary64. -/
def IsInRange (v? : Option Value) : Prop := ∀ v ∈ v?, v.InRange

/-- The locked amounts that a body gives, none of any asset if there is no body. -/
def lockedOf (v? : Option Value) : Except Fault LockedAmounts :=
  v?.elim (.ok .zero) fun v => (LockedAmounts.ofValue v).mapError ArithmeticFault.toFault

/-- The amount that a body gives. -/
def heldOf (v? : Option Value) : Except Fault Binary64 :=
  (Amount.ofValue? (v?.bind (·.field? "balance"))).mapError ArithmeticFault.toFault

lemma fetchLocked_eq : (s.fetchLocked address host j).1
    = lockedOf (((s.fetchLocked address).lastReply host j).bind (Reply.value? host.reader)) := by
  refine s.bind_fetchOptional host j ?_
  rintro (_ | v) j'
  · rfl
  · exact Net.mapError_ofExcept _ _ host j'

lemma fetchContract_eq : (s.fetchContract address host j).1
    = heldOf (((s.fetchContract address).lastReply host j).bind (Reply.value? host.reader)) :=
  s.bind_fetchOptional host j fun _ j' => Net.mapError_ofExcept _ _ host j'

variable {v? : Option Value}

lemma lockedOf_eq (h : ∀ v ∈ v?, LockedAmounts.AreCountable v) :
    lockedOf v? = .ok fun a => Amount.counted (lockedIn v? a) := by
  simp only [lockedIn]
  cases v? with
  | none => rfl
  | some v =>
    rw [lockedOf, Option.elim_some, LockedAmounts.ofValue_eq (h v rfl)]
    rfl

lemma heldOf_eq (h : Amount.IsCountable (heldIn v?)) :
    heldOf v? = .ok (Amount.counted (heldIn v?)) := by
  have hread := Amount.ofValue?_eq h
  rw [heldIn] at hread
  rw [heldOf, hread]
  rfl

lemma lockedOf_of_not_areCountable (h : ¬ ∀ v ∈ v?, LockedAmounts.AreCountable v) :
    lockedOf v? = .error ArithmeticFault.overflow.toFault := by
  obtain ⟨v, hv⟩ := Classical.not_forall.1 h
  obtain ⟨hv, hlarge⟩ := Classical.not_imp.1 hv
  rw [Option.mem_def.1 hv, lockedOf, Option.elim_some,
    LockedAmounts.ofValue_of_not_areCountable hlarge]
  rfl

lemma heldOf_of_not_isCountable (h : ¬ Amount.IsCountable (heldIn v?)) :
    heldOf v? = .error ArithmeticFault.overflow.toFault := by
  have hread := Amount.ofValue?_of_not_isCountable h
  rw [heldIn] at hread
  rw [heldOf, hread]
  rfl

/-! ### When the lookups run -/

/-- What went on before the lookup of the account. -/
def accountStart : Journal :=
  match host.schedule with
  | .first _ => (s.fetchLocked address host j).2
  | .second | .last => j

def accountRun : Except Fault Value × Journal :=
  s.fetchAccount address host (s.accountStart address host j)

/-- What went on before the contract was asked. -/
def contractStart : Journal :=
  let past := (s.accountRun address host j).2
  match host.schedule with
  | .second => (s.fetchLocked address host past).2
  | .first _ | .last => past

def contractRun : Except Fault (Value × Binary64) × Journal :=
  s.fetchAfterAccount address (s.accountRun address host j).1 host (s.contractStart address host j)

/-- What went on before the lookup of the locked amounts. -/
def escrowStart : Journal :=
  match host.schedule with
  | .first _ => j
  | .second => (s.accountRun address host j).2
  | .last => (s.contractRun address host j).2

def escrowRun : Except Fault LockedAmounts × Journal :=
  s.fetchLocked address host (s.escrowStart address host j)

/-- The lookup of the locked amounts fails while that of the account runs, and the contract is not
asked any more. -/
def IsCutShort : Prop :=
  host.schedule = .first false ∧ (s.escrowRun address host j).1.isOk = false

instance : Decidable (s.IsCutShort address host j) := inferInstanceAs (Decidable (_ ∧ _))

/-- Nothing is asked for an asset that is kept on the ledger. -/
lemma fetchAfterAccount_of_onLedger (account : Value) (h : s.isContractSourced = false) :
    s.fetchAfterAccount address (.ok account) host j = (.ok (account, .zero false), j) := by
  rw [fetchAfterAccount, Net.ofExcept_ok_bind, h]
  rfl

lemma fetchAfterAccount_of_sourced (account : Value) (h : s.isContractSourced = true) :
    s.fetchAfterAccount address (.ok account) host j
      = ((s.fetchContract address host j).1.map (account, ·),
        (s.fetchContract address host j).2) := by
  rw [fetchAfterAccount, Net.ofExcept_ok_bind, h, if_pos rfl]
  cases hc : (s.fetchContract address host j).1 with
  | error fault => rw [Net.bind_of_error (Prod.ext hc rfl)]; rfl
  | ok held => rw [Net.bind_of_ok (Prod.ext hc rfl)]; rfl

/-- What the lookups come to: the first fault in time, if there is one. -/
def lookedUp : Except Fault ((Value × Binary64) × LockedAmounts) :=
  match host.schedule with
  | .last => do
    let main ← (s.contractRun address host j).1
    return (main, ← (s.escrowRun address host j).1)
  | .second => do
    let _ ← (s.accountRun address host j).1
    let locked ← (s.escrowRun address host j).1
    return (← (s.contractRun address host j).1, locked)
  | .first _ => do
    let locked ← (s.escrowRun address host j).1
    return (← (s.contractRun address host j).1, locked)

/-- Where the lookups end. -/
def lookUpEnd : Journal :=
  if s.IsCutShort address host j then (s.accountRun address host j).2
  else if host.schedule = .last then (s.escrowRun address host j).2
  else (s.contractRun address host j).2

variable {s address host j}

lemma not_isCutShort (h : host.schedule ≠ .first false) : ¬ s.IsCutShort address host j :=
  fun hcut => h hcut.1

lemma lookUp_last (hs : host.schedule = .last) :
    s.lookUp address .last host j = (s.lookedUp address host j, s.lookUpEnd address host j) := by
  have haccount : s.accountRun address host j = s.fetchAccount address host j := by
    rw [accountRun, accountStart, hs]
  have hcontract : s.contractRun address host j = s.fetchAfterAccount address
      (s.fetchAccount address host j).1 host (s.fetchAccount address host j).2 := by
    rw [contractRun, contractStart, haccount, hs]
  have hescrow : s.escrowRun address host j
      = s.fetchLocked address host (s.contractRun address host j).2 := by
    rw [escrowRun, escrowStart, hs]
  have hwhole : ¬ s.IsCutShort address host j :=
    not_isCutShort (by rw [hs]; exact Schedule.noConfusion)
  rw [lookUpEnd, lookedUp, hs, if_neg hwhole, if_pos rfl, hescrow, hcontract, lookUp,
    Net.bind_of_ok (Net.outcome_eq _ host j), Net.bind_of_ok (Net.outcome_eq _ host _),
    Net.bind_of_ok (Net.outcome_eq _ host _)]
  generalize s.fetchAfterAccount address _ host _ = main
  generalize s.fetchLocked address host _ = locked
  obtain ⟨main, j'⟩ := main
  obtain ⟨locked, j''⟩ := locked
  cases main with
  | error fault => rfl
  | ok found => cases locked <;> rfl

lemma lookUp_second (hs : host.schedule = .second) :
    s.lookUp address .second host j = (s.lookedUp address host j, s.lookUpEnd address host j) := by
  have haccount : s.accountRun address host j = s.fetchAccount address host j := by
    rw [accountRun, accountStart, hs]
  have hescrow : s.escrowRun address host j
      = s.fetchLocked address host (s.fetchAccount address host j).2 := by
    rw [escrowRun, escrowStart, haccount, hs]
  have hcontract : s.contractRun address host j = s.fetchAfterAccount address
      (s.fetchAccount address host j).1 host (s.escrowRun address host j).2 := by
    rw [contractRun, contractStart, haccount, hescrow, hs]
  have hwhole : ¬ s.IsCutShort address host j :=
    not_isCutShort (by rw [hs]; exact Schedule.noConfusion)
  rw [lookUpEnd, lookedUp, hs, if_neg hwhole, if_neg Schedule.noConfusion, hcontract, hescrow,
    haccount, lookUp, Net.bind_of_ok (Net.outcome_eq _ host j),
    Net.bind_of_ok (Net.outcome_eq _ host _), Net.bind_of_ok (Net.outcome_eq _ host _)]
  generalize s.fetchAfterAccount address _ host _ = main
  generalize s.fetchLocked address host _ = locked
  generalize s.fetchAccount address host j = account
  obtain ⟨main, j'⟩ := main
  obtain ⟨locked, j''⟩ := locked
  obtain ⟨account, j₀⟩ := account
  cases account with
  | error fault => rfl
  | ok _ =>
    cases locked with
    | error fault => rfl
    | ok amounts => cases main <;> rfl

/-- What is left to do once the locked amounts and the account are looked up. -/
lemma lookUp_rest (account : Except Fault Value) (locked : Except Fault LockedAmounts) :
    (do
      let main ← (s.fetchAfterAccount address account).outcome
      let locked ← Net.ofExcept locked
      return (← Net.ofExcept main, locked) : Net Fault _) host j
        = (do
            let locked ← locked
            return (← (s.fetchAfterAccount address account host j).1, locked),
          (s.fetchAfterAccount address account host j).2) := by
  rw [Net.bind_of_ok (Net.outcome_eq _ host j)]
  generalize s.fetchAfterAccount address account host j = main
  obtain ⟨main, j'⟩ := main
  cases locked with
  | error fault => rfl
  | ok amounts => cases main <;> rfl

lemma lookUp_first {goesOn : Bool} (hs : host.schedule = .first goesOn) :
    s.lookUp address (.first goesOn) host j
      = (s.lookedUp address host j, s.lookUpEnd address host j) := by
  have hescrow : s.escrowRun address host j = s.fetchLocked address host j := by
    rw [escrowRun, escrowStart, hs]
  have haccount : s.accountRun address host j
      = s.fetchAccount address host (s.fetchLocked address host j).2 := by
    rw [accountRun, accountStart, hs]
  have hcontract : s.contractRun address host j = s.fetchAfterAccount address
      (s.accountRun address host j).1 host (s.accountRun address host j).2 := by
    rw [contractRun, contractStart, hs]
  have hcut : s.IsCutShort address host j
      ↔ goesOn = false ∧ (s.fetchLocked address host j).1.isOk = false := by
    rw [IsCutShort, hs, hescrow, Schedule.first.injEq]
  rw [lookUpEnd, lookedUp, hs, if_congr hcut rfl (if_neg Schedule.noConfusion), hcontract, hescrow,
    haccount, lookUp, Net.bind_of_ok (Net.outcome_eq _ host j),
    Net.bind_of_ok (Net.outcome_eq _ host _)]
  generalize s.fetchLocked address host j = locked
  obtain ⟨locked, j'⟩ := locked
  cases goesOn with
  | true => exact lookUp_rest _ locked
  | false =>
    cases locked with
    | error fault => rfl
    | ok amounts => exact lookUp_rest _ (.ok amounts)

variable (s address host j)

lemma lookUp_eq : s.lookUp address host.schedule host j
    = (s.lookedUp address host j, s.lookUpEnd address host j) := by
  cases hs : host.schedule with
  | last => exact lookUp_last hs
  | second => exact lookUp_second hs
  | first goesOn => exact lookUp_first hs

/-- A query looks up what it needs and puts together what it got; besides that it only notes. -/
lemma fetchBalances_eq :
    ∃ more : Journal, more.traffic = [] ∧ s.fetchBalances address host j
      = ((do
          let ((account, contract), locked) ← s.lookedUp address host j
          s.balances account contract locked), s.lookUpEnd address host j ++ more) := by
  rw [fetchBalances, Net.bind_of_ok (Net.host_eq host j)]
  cases hfound : s.lookedUp address host j with
  | error fault =>
    have hrun : s.lookUp address host.schedule host j
        = (.error fault, s.lookUpEnd address host j) := by rw [lookUp_eq, hfound]
    rw [Net.bind_of_error hrun]
    exact ⟨[], rfl, by rw [List.append_nil]; rfl⟩
  | ok found =>
    have hrun : s.lookUp address host.schedule host j
        = (.ok found, s.lookUpEnd address host j) := by rw [lookUp_eq, hfound]
    rw [Net.bind_of_ok hrun]
    obtain ⟨⟨account, contract⟩, locked⟩ := found
    change ∃ more : Journal, more.traffic = [] ∧
      (Net.ofExcept (s.balances account contract locked) >>= _) host (s.lookUpEnd address host j)
        = (s.balances account contract locked, s.lookUpEnd address host j ++ more)
    cases s.balances account contract locked with
    | error fault =>
      rw [Net.ofExcept_error_bind]
      exact ⟨[], rfl, by rw [List.append_nil]⟩
    | ok b =>
      rw [Net.ofExcept_ok_bind]
      exact ⟨[.noted (.note WalletBalances.part .debug (balancesMessage address b))], rfl, rfl⟩

/-! ### The balances that three replies give -/

/-- The balance of an asset is kept on the ledger. -/
def IsOnLedger (a : Asset) : Prop := a = .arenax → s.isContractSourced = false

/-- The line of an account that counts for an asset. -/
def line? (a : Asset) (account : Value) : Option (List (String × Value)) :=
  (BalanceLine.lines account).find? fun fields =>
    match a with
    | .xlm => BalanceLine.isNative fields
    | a => BalanceLine.isClassic a (s.assets a).issuer fields

/-- A line shows an asset as the settings keep it. -/
def fits (a : Asset) : List (String × Value) → Bool :=
  match a with
  | .xlm => BalanceLine.isNative
  | a => BalanceLine.isClassic a (s.assets a).issuer

/-- All that counts of an account can be read: there are lines, a search for an asset meets nothing
else, and the amount on the line that it finds is not too large. -/
def CanRead (account : Value) : Prop :=
  ∃ items, BalanceLine.items? account = some items ∧ ∀ a, s.IsOnLedger a →
    BalanceLine.IsSearchable (s.fits a) items ∧
      Amount.IsCountable ((s.line? a account).bind (Fields.lookup "balance"))

lemma line?_eq {account : Value} {items : List Value}
    (h : BalanceLine.items? account = some items) (a : Asset) :
    s.line? a account = (items.filterMap Value.object?).find? (s.fits a) := by
  rw [line?, (BalanceLine.ofAccount_eq h).2]
  cases a <;> rfl

lemma canRead_of_inRange {account : Value} (h : account = .null ∨ BalanceLine.IsAccount account)
    (hrange : account.InRange) : s.CanRead account := by
  have hitems : BalanceLine.items? account = some ((BalanceLine.lines account).map .object) := by
    obtain rfl | h := h
    · rfl
    · exact BalanceLine.items?_of_isAccount h
  refine ⟨_, hitems, fun a _ => ⟨BalanceLine.isSearchable_map_object _, ?_⟩⟩
  exact BalanceLine.isCountable_of_inRange hrange fun _ hl => List.mem_of_find?_eq_some hl

/-- The amount of an asset that is not locked. -/
def availableOf (account : Value) (contract : Binary64) (a : Asset) : Binary64 :=
  if a = .arenax ∧ s.isContractSourced = true then contract
  else BalanceLine.amount (s.line? a account)

def trustOf (account : Value) (a : Asset) : Bool :=
  if a = .arenax ∧ s.isContractSourced = true then !account.isNull
  else a = .xlm || (s.line? a account).isSome

lemma balances_eq {account : Value} (h : s.CanRead account) (contract : Binary64)
    (locked : LockedAmounts) :
    s.balances account contract locked = .ok fun a =>
      .ofAmounts a (s.assets a) (s.availableOf account contract a) (locked a)
        (s.trustOf account a) := by
  obtain ⟨items, hitems, hread⟩ := h
  have hlines := (BalanceLine.ofAccount_eq hitems).1
  have hfound {a : Asset} (ha : s.IsOnLedger a) :
      BalanceLine.find? (s.fits a) items = .ok ((s.line? a account).map .object) := by
    rw [s.line?_eq hitems]
    exact BalanceLine.find?_eq (hread a ha).1
  have hamount {a : Asset} (ha : s.IsOnLedger a) :
      lineAmount ((s.line? a account).map .object)
        = .ok (BalanceLine.amount (s.line? a account)) :=
    BalanceLine.lineAmount_eq (hread a ha).2
  have hxlm : BalanceLine.native? items = .ok ((s.line? .xlm account).map .object) :=
    hfound (a := .xlm) nofun
  have husdc : BalanceLine.classic? .usdc (s.assets .usdc).issuer items
      = .ok ((s.line? .usdc account).map .object) := hfound (a := .usdc) nofun
  have hledger (a : Asset) (ha : a ≠ .arenax) : s.IsOnLedger a := fun h => absurd h ha
  simp only [balances, hlines, ok_bind, hxlm, husdc, hamount (hledger .xlm (by decide)),
    hamount (hledger .usdc (by decide))]
  cases hs : s.isContractSourced with
  | true =>
    refine congrArg (fun b : WalletBalances => Except.ok b) (funext fun a => ?_)
    cases a <;> simp [availableOf, trustOf, hs]
  | false =>
    have harenax : BalanceLine.classic? .arenax (s.assets .arenax).issuer items
        = .ok ((s.line? .arenax account).map .object) := hfound (a := .arenax) fun _ => hs
    simp only [harenax, ok_bind, hamount (a := .arenax) fun _ => hs]
    refine congrArg (fun b : WalletBalances => Except.ok b) (funext fun a => ?_)
    cases a <;> simp [availableOf, trustOf, hs]

end WalletSettings

end StellarWallet
