import StellarWallet.Http.Script
import StellarWallet.Proofs.Balance.Lookups
import StellarWallet.Proofs.Json.Depth

/-!
The sources of the balances are isolated from each other.

Each amount and each trustline is read from one reply: what is kept on the ledger from the account,
what is locked from the escrow, what is kept in a contract from that contract. So a source that
fails or replies nonsense neither fails a query nor changes what is read from the others.
-/

namespace StellarWallet

lemma AssetBalance.eq_of_parts {b c : AssetBalance} (hasset : b.asset = c.asset)
    (havailable : b.available = c.available) (hlocked : b.locked = c.locked)
    (htrust : b.hasTrustline = c.hasTrustline) (hsettings : b.settings = c.settings) : b = c := by
  cases b with
  | mk asset available locked hasTrustline settings total hb =>
    cases c with
    | mk asset' available' locked' hasTrustline' settings' total' hc =>
      dsimp only at hasset havailable hlocked htrust hsettings
      subst hasset havailable hlocked htrust hsettings
      cases hb.symm.trans hc
      rfl

/-- A query for the balances of an address: what it runs on, and what went on before. -/
structure BalanceQuery where
  settings : WalletSettings
  address : String
  host : Host
  past : Journal

namespace BalanceQuery

section

variable (q : BalanceQuery)

def result : Except Fault WalletBalances :=
  (q.settings.fetchBalances q.address q.host q.past).1

/-! ### The three replies -/

/-- The reply that ended the lookup of the account. -/
def accountReply : Option Reply :=
  (q.settings.fetchAccount q.address).lastReply q.host
    (q.settings.accountStart q.address q.host q.past)

/-- The reply about the balance in the contract, if it was asked for. -/
def contractReply : Option Reply :=
  if q.settings.isContractSourced ∧ ¬ q.settings.IsCutShort q.address q.host q.past then
    (q.settings.fetchContract q.address).lastReply q.host
      (q.settings.contractStart q.address q.host q.past)
  else none

/-- The reply about locked amounts, if they were asked for. -/
def escrowReply : Option Reply :=
  (q.settings.fetchLocked q.address).lastReply q.host
    (q.settings.escrowStart q.address q.host q.past)

/-- The ledger says that there is no account, or describes something. -/
def IsKnown : Prop := ∃ reply, q.accountReply = some reply ∧ reply.IsKnown q.host.reader

/-- What a reply brings. -/
def read (reply : Option Reply) : Option Value := reply.bind (Reply.value? q.host.reader)

/-- The account that the ledger describes. -/
def account? : Option Value := q.read q.accountReply

/-- What the contract says. -/
def contract? : Option Value := q.read q.contractReply

/-- What the escrow says. -/
def escrow? : Option Value := q.read q.escrowReply

/-- The ledger says that there is no account, or describes one, and no whole number of a reply is
too large. The other two may reply or fail as they like. -/
structure IsAnswered : Prop where
  account : ∃ reply, q.accountReply = some reply ∧
    (reply.IsMissing ∨ ∃ v, reply.value? q.host.reader = some v ∧ BalanceLine.IsAccount v)
  account_inRange : WalletSettings.IsInRange q.account?
  contract_inRange : WalletSettings.IsInRange q.contract?
  escrow_inRange : WalletSettings.IsInRange q.escrow?

/-- The line that counts for an asset, if there is an account and it has one. -/
def line? (a : Asset) : Option (List (String × Value)) := q.account?.bind (q.settings.line? a)

/-- All that counts of the three replies can be read. -/
structure IsReadable : Prop where
  account : q.settings.CanRead (q.account?.getD .null)
  contract : Amount.IsCountable (WalletSettings.heldIn q.contract?)
  escrow : ∀ v ∈ q.escrow?, LockedAmounts.AreCountable v

/-- What counts for an asset that is kept on the ledger. -/
def ledgerAmount (a : Asset) : Binary64 := BalanceLine.amount (q.line? a)

/-- What counts for ARENAX in its contract. -/
def contractAmount : Binary64 := Amount.counted (WalletSettings.heldIn q.contract?)

/-- What counts as locked. -/
def lockedAmount (a : Asset) : Binary64 :=
  Amount.counted (WalletSettings.lockedIn q.escrow? a)

end

variable {q q' : BalanceQuery}

/-- The account that is looked up is the one that the ledger describes, null if there is none. -/
lemma IsKnown.accountRun_eq (h : q.IsKnown) :
    (q.settings.accountRun q.address q.host q.past).1 = .ok (q.account?.getD .null) := by
  obtain ⟨reply, hreply, hkind⟩ := h
  have hspec := (q.settings.fetchAccount_spec q.address q.host _).2 reply hreply
  have haccount : q.account? = reply.value? q.host.reader := congrArg q.read hreply
  rw [haccount]
  obtain hmissing | ⟨v, hv⟩ := hkind
  · rw [hmissing.value?_eq]
    exact hspec.1 hmissing
  · rw [hv]
    exact hspec.2 v hv

lemma IsAnswered.isKnown (h : q.IsAnswered) : q.IsKnown := by
  obtain ⟨reply, hreply, hkind⟩ := h.account
  exact ⟨reply, hreply, hkind.imp_right fun ⟨v, hv, _⟩ => ⟨v, hv⟩⟩

lemma IsAnswered.isAccount (h : q.IsAnswered) {v : Value} (hv : q.account? = some v) :
    BalanceLine.IsAccount v := by
  obtain ⟨reply, hreply, hkind⟩ := h.account
  have haccount : q.account? = reply.value? q.host.reader := congrArg q.read hreply
  rw [haccount] at hv
  obtain hmissing | ⟨w, hw, hw'⟩ := hkind
  · cases hmissing.value?_eq.symm.trans hv
  · cases hw.symm.trans hv
    exact hw'

lemma IsAnswered.isReadable (h : q.IsAnswered) : q.IsReadable := by
  refine ⟨?_, ?_, fun v hv => LockedAmounts.areCountable_of_inRange (h.escrow_inRange v hv)⟩
  · cases hv : q.account? with
    | none => exact q.settings.canRead_of_inRange (Or.inl rfl) Value.inRange_null
    | some v =>
      exact q.settings.canRead_of_inRange (Or.inr (h.isAccount hv)) (h.account_inRange v hv)
  · refine Amount.isCountable_of_inRange fun v hv => ?_
    obtain ⟨body, hbody, hfield⟩ := Option.bind_eq_some_iff.1 hv
    exact (h.contract_inRange body hbody).of_field hfield

section

variable {account : Value} {fault : Fault}

lemma escrowRun_eq (q : BalanceQuery) :
    (q.settings.escrowRun q.address q.host q.past).1 = WalletSettings.lockedOf q.escrow? :=
  q.settings.fetchLocked_eq q.address q.host _

lemma contractRun_of_error
    (h : (q.settings.accountRun q.address q.host q.past).1 = .error fault) :
    (q.settings.contractRun q.address q.host q.past).1 = .error fault := by
  rw [WalletSettings.contractRun, h]
  rfl

/-- With an account, the contract is asked what it holds, unless nobody waits for that any more. -/
lemma contractRun_of_ok (h : (q.settings.accountRun q.address q.host q.past).1 = .ok account)
    (hwhole : ¬ q.settings.IsCutShort q.address q.host q.past) :
    (q.settings.contractRun q.address q.host q.past).1
      = (WalletSettings.heldOf q.contract?).map (account, ·) := by
  rw [WalletSettings.contractRun, h, contract?, contractReply]
  cases hs : q.settings.isContractSourced with
  | false =>
    rw [q.settings.fetchAfterAccount_of_onLedger _ _ _ _ hs, if_neg (by simp)]
    rfl
  | true =>
    rw [q.settings.fetchAfterAccount_of_sourced _ _ _ _ hs, if_pos ⟨rfl, hwhole⟩,
      q.settings.fetchContract_eq]
    rfl

/-- With an account, the result is put together from what the three replies bring; of two faults the
first in time counts. -/
lemma result_of_ok (h : (q.settings.accountRun q.address q.host q.past).1 = .ok account) :
    q.result = (if q.host.schedule = .last then do
        let contract ← WalletSettings.heldOf q.contract?
        let locked ← WalletSettings.lockedOf q.escrow?
        q.settings.balances account contract locked
      else do
        let locked ← WalletSettings.lockedOf q.escrow?
        let contract ← WalletSettings.heldOf q.contract?
        q.settings.balances account contract locked) := by
  obtain ⟨more, -, hrun⟩ := q.settings.fetchBalances_eq q.address q.host q.past
  rw [result, hrun, WalletSettings.lookedUp, h, escrowRun_eq]
  by_cases hwhole : q.settings.IsCutShort q.address q.host q.past
  · obtain ⟨hs, hfailed⟩ := hwhole
    rw [escrowRun_eq] at hfailed
    cases hlocked : WalletSettings.lockedOf q.escrow? with
    | ok locked =>
      rw [hlocked] at hfailed
      cases hfailed
    | error fault =>
      rw [hs, if_neg Schedule.noConfusion]
      rfl
  · rw [contractRun_of_ok h hwhole]
    generalize WalletSettings.lockedOf q.escrow? = locked
    generalize WalletSettings.heldOf q.contract? = held
    cases q.host.schedule with
    | last =>
      rw [if_pos rfl]
      cases held <;> cases locked <;> rfl
    | second =>
      rw [if_neg Schedule.noConfusion]
      cases locked <;> cases held <;> rfl
    | first goesOn =>
      rw [if_neg Schedule.noConfusion]
      cases locked <;> cases held <;> rfl

/-- Without one, the query fails as the lookup of the account does, unless the locked amounts have
failed before. -/
lemma result_of_error
    (h : (q.settings.accountRun q.address q.host q.past).1 = .error fault) :
    q.result = match q.host.schedule with
      | .first _ => do
        let _ ← WalletSettings.lockedOf q.escrow?
        .error fault
      | .second | .last => .error fault := by
  obtain ⟨more, -, hrun⟩ := q.settings.fetchBalances_eq q.address q.host q.past
  rw [result, hrun, WalletSettings.lookedUp, contractRun_of_error h, h, escrowRun_eq]
  cases q.host.schedule with
  | last => rfl
  | second => rfl
  | first goesOn => cases WalletSettings.lockedOf q.escrow? <;> rfl

end

lemma result_eq (h : q.IsKnown) (hread : q.IsReadable) :
    q.result = .ok fun a => .ofAmounts a (q.settings.assets a)
      (q.settings.availableOf (q.account?.getD .null) q.contractAmount a) (q.lockedAmount a)
      (q.settings.trustOf (q.account?.getD .null) a) := by
  rw [result_of_ok h.accountRun_eq, WalletSettings.heldOf_eq hread.contract,
    WalletSettings.lockedOf_eq hread.escrow, ok_bind, ok_bind, ok_bind, ok_bind, ite_self,
    q.settings.balances_eq hread.account]
  rfl

/-! ### What each reply decides -/

/-- What a query reports: each amount is read from one reply alone. -/
structure Reports (q : BalanceQuery) (b : WalletBalances) : Prop where
  assets : b.toList.map (·.asset) = [.xlm, .usdc, .arenax]
  asset : ∀ a, (b a).asset = a
  settings : ∀ a, (b a).settings = q.settings.assets a
  ledger_available : ∀ a, q.settings.IsOnLedger a → (b a).available = .real (q.ledgerAmount a)
  ledger_trust : ∀ a, q.settings.IsOnLedger a →
    ((b a).hasTrustline = true ↔ a = .xlm ∨ ∃ fields, q.line? a = some fields)
  contract_available : ¬ q.settings.IsOnLedger .arenax →
    (b .arenax).available = .real q.contractAmount
  contract_trust : ¬ q.settings.IsOnLedger .arenax →
    ((b .arenax).hasTrustline = true ↔ ∃ account, q.account? = some account)
  locked : ∀ a, (b a).locked = .real (q.lockedAmount a)
  amounts : ∀ a, ∃ x y, (b a).available = .real x ∧ (b a).locked = .real y ∧
    (b a).total = .real (x.add y) ∧ Amount.IsAmount x ∧ Amount.IsAmount y
  /-- A contract that is not set, that fails or that sends no value holds nothing. -/
  contract_silent : WalletSettings.IsUnset q.settings.contractEndpoint ∨
    q.contract? = none → q.contractAmount = .zero false
  /-- An escrow that is not set, that fails or that sends no value has nothing locked. -/
  escrow_silent : WalletSettings.IsUnset q.settings.escrowEndpoint ∨ q.escrow? = none →
    ∀ a, q.lockedAmount a = .zero false

lemma getD_account?_line? (q : BalanceQuery) (a : Asset) :
    q.settings.line? a (q.account?.getD .null) = q.line? a := by
  rw [line?]
  cases q.account? <;> rfl

lemma contractAmount_of_silent (h : WalletSettings.IsUnset q.settings.contractEndpoint ∨
    q.contract? = none) : q.contractAmount = .zero false := by
  have hnone : q.contract? = none := by
    obtain h | h := h
    · rw [contract?, contractReply, q.settings.lastReply_fetchContract _ _ _ h, ite_self]
      rfl
    · exact h
  rw [contractAmount, WalletSettings.heldIn, hnone]
  rfl

lemma lockedAmount_of_silent (h : WalletSettings.IsUnset q.settings.escrowEndpoint ∨
    q.escrow? = none) (a : Asset) : q.lockedAmount a = .zero false := by
  have hnone : q.escrow? = none := by
    obtain h | h := h
    · rw [escrow?, escrowReply, q.settings.lastReply_fetchLocked _ _ _ h]
      rfl
    · exact h
  rw [lockedAmount, WalletSettings.lockedIn, hnone]
  rfl

lemma isAmount_availableOf (q : BalanceQuery) (account : Value) (a : Asset) :
    Amount.IsAmount (q.settings.availableOf account q.contractAmount a) := by
  rw [WalletSettings.availableOf]
  split
  · exact Amount.isAmount_counted _
  · exact Amount.isAmount_counted _

lemma exists_reports (h : q.IsAnswered) : ∃ b, q.result = .ok b ∧ q.Reports b := by
  have hknown : (q.account?.getD .null).isNull = false ↔ ∃ v, q.account? = some v := by
    cases hv : q.account? with
    | none => exact ⟨nofun, nofun⟩
    | some v =>
      obtain ⟨fields, rfl, -⟩ := h.isAccount hv
      exact ⟨fun _ => ⟨_, rfl⟩, fun _ => rfl⟩
  have hoff {a : Asset} (ha : q.settings.IsOnLedger a) :
      ¬ (a = .arenax ∧ q.settings.isContractSourced = true) :=
    fun hc => Bool.false_ne_true ((ha hc.1).symm.trans hc.2)
  have hsourced (ha : ¬ q.settings.IsOnLedger .arenax) :
      Asset.arenax = .arenax ∧ q.settings.isContractSourced = true :=
    ⟨rfl, (Bool.not_eq_false _).mp fun hc => ha fun _ => hc⟩
  refine ⟨_, result_eq h.isKnown h.isReadable, ?_⟩
  constructor
  case assets => rfl
  case asset => exact fun a => rfl
  case settings => exact fun a => rfl
  case ledger_available =>
    intro a ha
    refine congrArg Number.real ?_
    rw [WalletSettings.availableOf, if_neg (hoff ha), getD_account?_line?, ledgerAmount]
  case ledger_trust =>
    intro a ha
    change q.settings.trustOf _ a = true ↔ _
    rw [WalletSettings.trustOf, if_neg (hoff ha), getD_account?_line?, Bool.or_eq_true,
      decide_eq_true_iff, Option.isSome_iff_exists]
  case contract_available =>
    intro ha
    exact congrArg Number.real (if_pos (hsourced ha))
  case contract_trust =>
    intro ha
    change q.settings.trustOf _ .arenax = true ↔ _
    rw [WalletSettings.trustOf, if_pos (hsourced ha), Bool.not_eq_true', hknown]
  case locked => exact fun a => rfl
  case amounts =>
    exact fun a => ⟨_, _, rfl, rfl, rfl, q.isAmount_availableOf _ a, Amount.isAmount_counted _⟩
  case contract_silent => exact contractAmount_of_silent
  case escrow_silent => exact lockedAmount_of_silent

/-! ### Two queries -/

/-- What two queries have in common because of what they share, and how far they can differ. -/
structure Agree (q q' : BalanceQuery) (b b' : WalletBalances) : Prop where
  /-- The ledger's reply and the settings decide what is kept on the ledger. -/
  ledger : q.settings = q'.settings → q.account? = q'.account? →
    ∀ a, q.settings.IsOnLedger a →
      (b a).available = (b' a).available ∧ (b a).hasTrustline = (b' a).hasTrustline
  /-- The reply about locked amounts alone decides these. -/
  escrow : q.escrow? = q'.escrow? → ∀ a, (b a).locked = (b' a).locked
  /-- The reply of the contract alone decides what is available in it. -/
  contract : ¬ q.settings.IsOnLedger .arenax → ¬ q'.settings.IsOnLedger .arenax →
    q.contract? = q'.contract? → (b .arenax).available = (b' .arenax).available
  /-- Whether there is an account alone decides whether the contract may be used. -/
  contract_trust : ¬ q.settings.IsOnLedger .arenax → ¬ q'.settings.IsOnLedger .arenax →
    ((∃ v, q.account? = some v) ↔ ∃ v, q'.account? = some v) →
    (b .arenax).hasTrustline = (b' .arenax).hasTrustline
  /-- Another reply about locked amounts changes these and the totals, and nothing else. -/
  other_escrow : q.settings = q'.settings → q.account? = q'.account? →
    q.contract? = q'.contract? → ∀ a, (b a).asset = (b' a).asset ∧
      (b a).settings = (b' a).settings ∧ (b a).available = (b' a).available ∧
      (b a).hasTrustline = (b' a).hasTrustline
  /-- Another reply of the contract changes what is available in it and that total, and nothing
  else. -/
  other_contract : q.settings = q'.settings → q.account? = q'.account? →
    q.escrow? = q'.escrow? → (∀ a, q.settings.IsOnLedger a → b a = b' a) ∧
      (b .arenax).asset = (b' .arenax).asset ∧ (b .arenax).settings = (b' .arenax).settings ∧
      (b .arenax).locked = (b' .arenax).locked ∧
      (b .arenax).hasTrustline = (b' .arenax).hasTrustline

section

variable {b b' : WalletBalances} (h : q.Reports b) (h' : q'.Reports b')
include h h'

lemma Reports.ledger_congr (hs : q.settings = q'.settings)
    (hr : q.account? = q'.account?) {a : Asset} (ha : q.settings.IsOnLedger a) :
    (b a).available = (b' a).available ∧ (b a).hasTrustline = (b' a).hasTrustline := by
  have hline : q.line? a = q'.line? a := by rw [line?, line?, hs, hr]
  have ha' : q'.settings.IsOnLedger a := hs ▸ ha
  refine ⟨?_, ?_⟩
  · rw [h.ledger_available a ha, h'.ledger_available a ha', ledgerAmount, ledgerAmount, hline]
  · rw [Bool.eq_iff_iff, h.ledger_trust a ha, h'.ledger_trust a ha', hline]

lemma Reports.locked_congr (hr : q.escrow? = q'.escrow?) (a : Asset) :
    (b a).locked = (b' a).locked := by
  rw [h.locked, h'.locked, lockedAmount, lockedAmount, hr]

lemma Reports.contract_congr (ha : ¬ q.settings.IsOnLedger .arenax)
    (ha' : ¬ q'.settings.IsOnLedger .arenax) (hr : q.contract? = q'.contract?) :
    (b .arenax).available = (b' .arenax).available := by
  rw [h.contract_available ha, h'.contract_available ha', contractAmount, contractAmount, hr]

lemma Reports.trust_congr (ha : ¬ q.settings.IsOnLedger .arenax)
    (ha' : ¬ q'.settings.IsOnLedger .arenax)
    (hr : (∃ v, q.account? = some v) ↔ ∃ v, q'.account? = some v) :
    (b .arenax).hasTrustline = (b' .arenax).hasTrustline := by
  rw [Bool.eq_iff_iff, h.contract_trust ha, h'.contract_trust ha', hr]

/-- The trust in an asset rests on the account and the settings. -/
lemma Reports.hasTrustline_congr (hs : q.settings = q'.settings)
    (hr : q.account? = q'.account?) (a : Asset) :
    (b a).hasTrustline = (b' a).hasTrustline := by
  by_cases ha : q.settings.IsOnLedger a
  · exact (h.ledger_congr h' hs hr ha).2
  · obtain ⟨rfl, -⟩ := Classical.not_imp.1 ha
    exact h.trust_congr h' ha (hs ▸ ha) (by rw [hr])

lemma Reports.agree : Agree q q' b b' := by
  have hasset (a : Asset) : (b a).asset = (b' a).asset := (h.asset a).trans (h'.asset a).symm
  have hsettings (hs : q.settings = q'.settings) (a : Asset) :
      (b a).settings = (b' a).settings := by
    rw [h.settings, h'.settings, hs]
  constructor
  case ledger => exact fun hs hr a ha => h.ledger_congr h' hs hr ha
  case escrow => exact h.locked_congr h'
  case contract => exact h.contract_congr h'
  case contract_trust => exact h.trust_congr h'
  case other_escrow =>
    intro hs hr hc a
    refine ⟨hasset a, hsettings hs a, ?_, h.hasTrustline_congr h' hs hr a⟩
    -- An asset is kept in one of two places, and both replies are the same.
    by_cases ha : q.settings.IsOnLedger a
    · exact (h.ledger_congr h' hs hr ha).1
    · obtain ⟨rfl, -⟩ := Classical.not_imp.1 ha
      exact h.contract_congr h' ha (hs ▸ ha) hc
  case other_contract =>
    intro hs hr he
    have hlocked := h.locked_congr h' he
    have htrust := h.hasTrustline_congr h' hs hr
    refine ⟨?_, hasset _, hsettings hs _, hlocked _, htrust _⟩
    intro a ha
    exact AssetBalance.eq_of_parts (hasset a) (h.ledger_congr h' hs hr ha).1 (hlocked a)
      (htrust a) (hsettings hs a)

end

/-- **The sources of the balances are isolated from each other.** A query to which the ledger
replies succeeds, whatever the other two sources do, and two such queries agree on all that their
common replies decide. -/
theorem sources_isolated (h : q.IsAnswered) (h' : q'.IsAnswered) :
    ∃ b b', q.result = .ok b ∧ q'.result = .ok b' ∧ q.Reports b ∧ q'.Reports b' ∧
      q.Agree q' b b' := by
  obtain ⟨b, hb, hreports⟩ := exists_reports h
  obtain ⟨b', hb', hreports'⟩ := exists_reports h'
  exact ⟨b, b', hb, hb', hreports, hreports', hreports.agree hreports'⟩

/-- A reply with a value. -/
def replyOf (v : Value) : Reply := .answer 200 (String.ofList (Json.encode v))

lemma value?_replyOf {reader : Json.Reader} {v : Value}
    (h : v.IsPlain Json.IsReadable reader.depth) : (replyOf v).value? reader = some v := by
  change (reader.decode (String.ofList (Json.encode v)).toList).toOption = _
  rw [String.toList_ofList, Json.decode_encode h]
  rfl

/-- An account that holds 7 XLM. -/
def fundedAccount : Value :=
  .object [("balances", .list [.object [("asset_type", .text "native"), ("balance", .text "7")]])]

/-- The settings of a wallet whose ARENAX is kept in a contract and that asks an escrow. -/
def contractSettings : WalletSettings :=
  { WalletSettings.ofNetwork .testnet with
    escrowEndpoint := some "/escrow"
    contractEndpoint := some "/arenax"
    assets := .ofIssuers none none (some "C1") }

/-- A query of such a wallet, which has 2 in the contract, with what the escrow replies. -/
def ofEscrow (escrow : Reply) : BalanceQuery where
  settings := contractSettings
  address := "G1"
  host := {
    server := Route.server [
      ⟨"https://horizon", [replyOf fundedAccount]⟩,
      ⟨"http://localhost/arenax", [replyOf (.object [("balance", .text "2")])]⟩,
      ⟨"http://localhost/escrow", [escrow]⟩] }
  past := []

lemma isPlain_field (key text : String) :
    (Value.object [(key, .text text)]).IsPlain Json.IsReadable 980 :=
  Value.isPlain_object.2 ⟨by decide, by simp,
    List.forall_mem_singleton.2 (Value.isPlain_text text)⟩

lemma isPlain_fundedAccount : fundedAccount.IsPlain Json.IsReadable 980 := by
  refine Value.isPlain_object.2 ⟨by decide, by simp, List.forall_mem_singleton.2 ?_⟩
  refine Value.isPlain_list.2 ⟨by decide, List.forall_mem_singleton.2 ?_⟩
  refine Value.isPlain_object.2 ⟨by decide, by decide, ?_⟩
  simp [Value.isPlain_text]

lemma isAnswered_ofEscrow {escrow : Reply}
    (haccount : (ofEscrow escrow).accountReply = some (replyOf fundedAccount))
    (hcontract : (ofEscrow escrow).contractReply
      = some (replyOf (.object [("balance", .text "2")])))
    (hescrow : WalletSettings.IsInRange (ofEscrow escrow).escrow?) :
    (ofEscrow escrow).IsAnswered := by
  have hfunded : (ofEscrow escrow).account? = some fundedAccount := by
    rw [account?, read, haccount, Option.bind_some, value?_replyOf isPlain_fundedAccount]
  have hheld : (ofEscrow escrow).contract? = some (.object [("balance", .text "2")]) := by
    rw [contract?, read, hcontract, Option.bind_some, value?_replyOf (isPlain_field _ _)]
  constructor
  case account =>
    exact ⟨_, haccount, Or.inr ⟨_, value?_replyOf isPlain_fundedAccount, _, rfl, Or.inr (Or.inr
      ⟨[[("asset_type", .text "native"), ("balance", .text "7")]], rfl⟩)⟩⟩
  case account_inRange =>
    intro v hv
    cases hfunded.symm.trans hv
    simp [Value.InRange, fundedAccount, Value.numbers, Value.itemNumbers, Value.fieldNumbers]
  case contract_inRange =>
    intro v hv
    cases hheld.symm.trans hv
    simp [Value.InRange, Value.numbers, Value.fieldNumbers]
  case escrow_inRange => exact hescrow

/-- When the escrow goes down, what it had locked no longer counts, and the rest stays. -/
theorem escrow_outage_keeps_the_rest :
    let up := ofEscrow (replyOf (.object [("ARENAX", .text "5")]))
    let down := ofEscrow (.failure ⟨.connection, "refused"⟩)
    ∃ b b', up.result = .ok b ∧ down.result = .ok b' ∧
      (b .arenax).locked = .real (.ofInt 5) ∧ (b' .arenax).locked = .real (.zero false) ∧
      (b .arenax).available = .real (.ofInt 2) ∧ (b' .arenax).available = .real (.ofInt 2) := by
  intro up down
  have haccount : up.accountReply = some (replyOf fundedAccount) := by decide +kernel
  have haccount' : down.accountReply = some (replyOf fundedAccount) := by decide +kernel
  have hcontract : up.contractReply = some (replyOf (.object [("balance", .text "2")])) := by
    decide +kernel
  have hcontract' : down.contractReply = some (replyOf (.object [("balance", .text "2")])) := by
    decide +kernel
  have hpaid : up.escrowReply = some (replyOf (.object [("ARENAX", .text "5")])) := by
    decide +kernel
  have hrefused : down.escrowReply = some (.failure ⟨.connection, "refused"⟩) := by
    decide +kernel
  have hpaid' : up.escrow? = some (.object [("ARENAX", .text "5")]) := by
    rw [escrow?, read, hpaid, Option.bind_some, value?_replyOf (isPlain_field _ _)]
  have hrefused' : down.escrow? = none := by
    rw [escrow?, read, hrefused]
    rfl
  have hup : up.IsAnswered := by
    refine isAnswered_ofEscrow haccount hcontract ?_
    intro v hv
    cases hpaid'.symm.trans hv
    simp [Value.InRange, Value.numbers, Value.fieldNumbers]
  have hdown : down.IsAnswered := by
    refine isAnswered_ofEscrow haccount' hcontract' ?_
    intro v hv
    cases hrefused'.symm.trans hv
  obtain ⟨b, b', hb, hb', hreports, hreports', hagree⟩ := sources_isolated hup hdown
  have hsourced : ¬ up.settings.IsOnLedger .arenax := fun h => absurd (h rfl) (by decide)
  have hheld : up.contract? = some (.object [("balance", .text "2")]) := by
    rw [contract?, read, hcontract, Option.bind_some, value?_replyOf (isPlain_field _ _)]
  have havailable : (b .arenax).available = .real (.ofInt 2) := by
    rw [hreports.contract_available hsourced, contractAmount, hheld]
    decide +kernel
  have hsame := hagree.other_escrow rfl
    (by rw [account?, account?, haccount, haccount']; rfl)
    (by rw [contract?, contract?, hcontract, hcontract']; rfl) .arenax
  refine ⟨b, b', hb, hb', ?_, ?_, havailable, hsame.2.2.1.symm.trans havailable⟩
  · rw [hreports.locked, lockedAmount, hpaid']
    decide +kernel
  · rw [hreports'.locked, lockedAmount, hrefused']
    rfl

/-- An account without lines, in a text that goes deeper than the reader. -/
def deepAccount : Value := .object [("x", .nested 1000), ("balances", .list [])]

/-- An account in a text that goes deeper than the reader is not known. -/
theorem deep_account_has_no_balances :
    BalanceLine.IsAccount deepAccount ∧
      ({ settings := .ofNetwork .testnet
         address := "G1"
         host := { server := fun _ _ => replyOf deepAccount }
         past := [] } : BalanceQuery).result = .error WalletBalances.unavailable := by
  let s := WalletSettings.ofNetwork .testnet
  let host : Host := { server := fun _ _ => replyOf deepAccount }
  have haccount : BalanceLine.IsAccount deepAccount :=
    ⟨_, rfl, Or.inr (Or.inr ⟨[], rfl⟩)⟩
  obtain ⟨what, hdeep⟩ : Json.GoesTooDeep (host.reader.read (String.ofList
      (Json.encode deepAccount))) :=
    Json.read_deepField (by decide)
      ⟨by decide, Value.isWellFormed_nested _, trivial, trivial⟩
      (by simp [Value.fieldNumbers, Value.numbers, Value.itemNumbers])
  have hvalue : Client.value host.reader true (s.accountRequest "G1").url (replyOf deepAccount)
      = .error (.tooDeep what) := by
    rw [replyOf, Client.value, if_neg (by decide), if_neg (by decide), hdeep]
    rfl
  -- Such a fault does not pass, so there is one attempt.
  have hcall : s.accountCall "G1" host [] = (.error (.network (.ofFault (.tooDeep what)
      (s.accountRequest "G1").url "Fetch Horizon account")), [.sent (s.accountRequest "G1")]) := by
    rw [WalletSettings.accountCall, Client.call, if_neg (by decide)]
    exact Client.attempts_of_last _ host true _ _ _ _ [] hvalue (Or.inr rfl)
  have hrun : (s.accountRun "G1" host []).1 = .error WalletBalances.unavailable := by
    obtain ⟨more, -, hrun⟩ := s.fetchAccount_eq "G1" host (s.accountStart "G1" host [])
    have hstart : s.accountStart "G1" host [] = [] := rfl
    rw [WalletSettings.accountRun, hrun, hstart, hcall]
    rfl
  exact ⟨haccount, result_of_error hrun⟩

end BalanceQuery

end StellarWallet
