import StellarWallet.Proofs.Balance.Requests

/-!
How a query for balances fails.

A lookup of the account that fails is reported as the wallet reports it, whatever the other servers
reply. One that does not fail gives the balances of all assets as long as the three replies can be
read; a reply that cannot be read, and a pause without a length, end the query with a fault of their
own.
-/

namespace StellarWallet

/-- A fault of reading a reply, which no one catches. -/
def Fault.IsUnread (fault : Fault) : Prop :=
  fault.kind ∈ [FaultKind.overflow, .missingAttribute, .wrongType]

instance (fault : Fault) : Decidable fault.IsUnread := inferInstanceAs (Decidable (_ ∈ _))

namespace BalanceLine

variable {p : List (String × Value) → Bool} {account : Value} {items : List Value}
  {line : Option Value}

lemma isUnread_of_ofAccount {fault : Fault} (h : ofAccount account = .error fault) :
    fault.IsUnread := by
  unfold ofAccount at h
  split at h
  · cases h
  · split at h
    · cases h
    · split at h
      any_goals cases h
      decide

lemma isUnread_of_find? {fault : Fault} (h : find? p items = .error fault) : fault.IsUnread := by
  by_cases hs : IsSearchable p items
  · rw [find?_eq hs] at h
    cases h
  · rw [find?_of_not_isSearchable hs] at h
    cases h
    decide

lemma isUnread_of_lineAmount {fault : Fault} (h : WalletSettings.lineAmount line = .error fault) :
    fault.IsUnread := by
  rw [WalletSettings.lineAmount] at h
  by_cases hc : Amount.IsCountable (line.bind (·.field? "balance"))
  · rw [Amount.ofValue?_eq hc] at h
    cases h
  · rw [Amount.ofValue?_of_not_isCountable hc] at h
    cases h
    decide

/-- Only items that stand for lines can be searched: what else counts as its parts has no fields. -/
lemma items?_of_find? (h : ofAccount account = .ok items) (hf : find? p items = .ok line) :
    items? account = some items := by
  cases hv : account.field? "balances" with
  | none =>
    rw [ofAccount, hv] at h
    rw [items?, hv]
    exact congrArg some (Except.ok.inj h)
  | some v =>
    rw [ofAccount, hv] at h
    rw [items?, hv]
    dsimp only at h ⊢
    split at h
    · next hempty =>
      rw [if_pos hempty]
      exact congrArg some (Except.ok.inj h)
    · next hfilled =>
      rw [if_neg hfilled]
      split at h
      · exact congrArg some (Except.ok.inj h)
      · next fields =>
        cases h
        cases fields with
        | nil => exact absurd rfl hfilled
        | cons f r => cases hf
      · next text =>
        cases h
        cases htext : text.toList with
        | nil =>
          rw [String.toList_eq_nil_iff.1 htext] at hfilled
          exact absurd (by decide) hfilled
        | cons c r =>
          rw [htext] at hf
          cases hf
      · cases h

lemma isSearchable_of_find? (h : find? p items = .ok line) :
    IsSearchable p items ∧ line = ((items.filterMap Value.object?).find? p).map .object := by
  by_cases hs : IsSearchable p items
  · rw [find?_eq hs] at h
    exact ⟨hs, (Except.ok.inj h).symm⟩
  · rw [find?_of_not_isSearchable hs] at h
    cases h

end BalanceLine

namespace WalletSettings

variable {s : WalletSettings} {account : Value} {contract : Binary64} {locked : LockedAmounts}

lemma isUnread_of_balances {fault : Fault} (h : s.balances account contract locked = .error fault) :
    fault.IsUnread := by
  unfold balances at h
  obtain h | ⟨items, -, h⟩ := bind_eq_error h
  · exact BalanceLine.isUnread_of_ofAccount h
  obtain h | ⟨line, -, h⟩ := bind_eq_error h
  · exact BalanceLine.isUnread_of_find? h
  obtain h | ⟨xlm, -, h⟩ := bind_eq_error h
  · exact BalanceLine.isUnread_of_lineAmount h
  obtain h | ⟨usdcLine, -, h⟩ := bind_eq_error h
  · exact BalanceLine.isUnread_of_find? h
  obtain h | ⟨usdc, -, h⟩ := bind_eq_error h
  · exact BalanceLine.isUnread_of_lineAmount h
  dsimp only at h
  split at h
  · cases h
  · obtain h | ⟨line, -, h⟩ := bind_eq_error h
    · exact BalanceLine.isUnread_of_find? h
    obtain h | ⟨arenax, -, h⟩ := bind_eq_error h
    · exact BalanceLine.isUnread_of_lineAmount h
    cases h

/-- Balances were put together from an account that can be read. -/
lemma canRead_of_balances {b : WalletBalances} (h : s.balances account contract locked = .ok b) :
    s.CanRead account := by
  unfold balances at h
  obtain ⟨items, hlines, h⟩ := bind_eq_ok h
  obtain ⟨xlmLine, hxlm, h⟩ := bind_eq_ok h
  obtain ⟨_, hxlmAmount, h⟩ := bind_eq_ok h
  obtain ⟨usdcLine, husdc, h⟩ := bind_eq_ok h
  obtain ⟨_, husdcAmount, h⟩ := bind_eq_ok h
  have hitems := BalanceLine.items?_of_find? hlines hxlm
  have hread {a : Asset} {line : Option Value} {x : Binary64}
      (hline : BalanceLine.find? (s.fits a) items = .ok line) (hx : lineAmount line = .ok x) :
      BalanceLine.IsSearchable (s.fits a) items ∧
        Amount.IsCountable ((s.line? a account).bind (Fields.lookup "balance")) := by
    obtain ⟨hs, rfl⟩ := BalanceLine.isSearchable_of_find? hline
    refine ⟨hs, Classical.not_not.1 fun hc => ?_⟩
    rw [s.line?_eq hitems] at hc
    rw [BalanceLine.lineAmount_of_not_isCountable hc] at hx
    cases hx
  refine ⟨items, hitems, fun a ha => ?_⟩
  cases a with
  | xlm => exact hread hxlm hxlmAmount
  | usdc => exact hread husdc husdcAmount
  | arenax =>
    dsimp only at h
    rw [if_neg (by rw [ha rfl]; decide)] at h
    obtain ⟨line, hline, h⟩ := bind_eq_ok h
    obtain ⟨_, hx, -⟩ := bind_eq_ok h
    exact hread hline hx

end WalletSettings

namespace BalanceQuery

variable (q : BalanceQuery)

/-- How often the account was asked for. -/
def accountAttempts : Nat :=
  let start := q.settings.accountStart q.address q.host q.past
  ((q.settings.fetchAccount q.address q.host start).2.since start).requests.length

/-- What a pause after so many attempts fails with: it has no length, or the host refuses it. -/
def pauseFault? (attempts : Int) : Option Fault :=
  match q.settings.retry.delay (attempts - 1) with
  | .error e => some e.toFault
  | .ok delay => q.host.refusal delay

/-- The account would be asked for once more, but the pause before fails. -/
structure LacksPause (fault : Fault) : Prop where
  attempts : (q.accountAttempts : Int) ≤ q.settings.retry.maxRetries
  passes : ∃ reply fault, q.accountReply = some reply ∧
    Client.value q.host.reader true (q.settings.accountRequest q.address).url reply
      = .error fault ∧
    q.settings.retry.retries fault = true
  fails : q.pauseFault? q.accountAttempts = some fault

/-- The escrow has told of an amount that is too large before the lookup of the account ends. -/
def EscrowFailsFirst : Prop := (∃ goesOn, q.host.schedule = .first goesOn) ∧
  ∃ v ∈ q.escrow?, ¬ LockedAmounts.AreCountable v

/-- How a query ends, whatever the servers do. -/
structure EndsByReplies : Prop where
  /-- A failed lookup of the account is reported as such, whatever the others reply afterwards. -/
  unknown : ¬ q.IsKnown → (∀ fault, ¬ q.LacksPause fault) → ¬ q.EscrowFailsFirst →
    q.result = .error WalletBalances.unavailable
  /-- It may fail in another way only between two attempts. -/
  unpaused : ∀ fault, q.LacksPause fault → ¬ q.EscrowFailsFirst → q.result = .error fault
  /-- The first fault in time ends the query, whatever comes of the account. -/
  escrow_first : q.EscrowFailsFirst → q.result = .error ArithmeticFault.overflow.toFault
  balances : q.IsKnown → q.IsReadable →
    ∃ b, q.result = .ok b ∧ b.toList.map (·.asset) = [.xlm, .usdc, .arenax]
  unread : q.IsKnown → ¬ q.IsReadable → ∃ fault, q.result = .error fault ∧ fault.IsUnread

variable {q}

lemma exists_balances (h : q.IsKnown) (hread : q.IsReadable) :
    ∃ b, q.result = .ok b ∧ b.toList.map (·.asset) = [.xlm, .usdc, .arenax] :=
  ⟨_, result_eq h hread, rfl⟩

lemma exists_unread (h : q.IsKnown) (hread : ¬ q.IsReadable) :
    ∃ fault, q.result = .error fault ∧ fault.IsUnread := by
  rw [result_of_ok h.accountRun_eq]
  by_cases hcontract : Amount.IsCountable (WalletSettings.heldIn q.contract?)
  · rw [WalletSettings.heldOf_eq hcontract]
    by_cases hescrow : ∀ v ∈ q.escrow?, LockedAmounts.AreCountable v
    · rw [WalletSettings.lockedOf_eq hescrow, ok_bind, ok_bind, ok_bind, ok_bind, ite_self]
      cases hb : q.settings.balances (q.account?.getD .null)
          (Amount.counted (WalletSettings.heldIn q.contract?))
          fun a => Amount.counted (WalletSettings.lockedIn q.escrow? a) with
      | ok b => exact absurd ⟨WalletSettings.canRead_of_balances hb, hcontract, hescrow⟩ hread
      | error fault => exact ⟨fault, rfl, WalletSettings.isUnread_of_balances hb⟩
    · rw [WalletSettings.lockedOf_of_not_areCountable hescrow]
      exact ⟨_, ite_self _, by decide⟩
  · -- Both faults that may come first are the same.
    rw [WalletSettings.heldOf_of_not_isCountable hcontract]
    refine ⟨ArithmeticFault.overflow.toFault, ?_, by decide⟩
    by_cases hescrow : ∀ v ∈ q.escrow?, LockedAmounts.AreCountable v
    · rw [WalletSettings.lockedOf_eq hescrow]
      exact ite_self _
    · rw [WalletSettings.lockedOf_of_not_areCountable hescrow]
      exact ite_self _

/-- A policy without attempts fails at once. -/
lemma accountRun_of_neg (h : q.settings.retry.maxRetries < 0) :
    (q.settings.accountRun q.address q.host q.past).1 = .error WalletBalances.unavailable := by
  obtain ⟨more, -, hrun⟩ := q.settings.fetchAccount_eq q.address q.host
    (q.settings.accountStart q.address q.host q.past)
  have hcall : q.settings.accountCall q.address = Net.fail (.network (.ofFault Client.noAttempt
      (q.settings.accountRequest q.address).url "Fetch Horizon account")) := by
    rw [WalletSettings.accountCall, Client.call]
    exact if_pos h
  rw [WalletSettings.accountRun, hrun, hcall]
  rfl

/-- A lookup of the account without an answer ends with a failure that is reported, or for want of a
pause. -/
lemma accountRun_of_not_isKnown (h : ¬ q.IsKnown) :
    (q.settings.accountRun q.address q.host q.past).1 = .error WalletBalances.unavailable ∧
        (∀ fault, ¬ q.LacksPause fault) ∨
      ∃ fault, q.LacksPause fault ∧
        (q.settings.accountRun q.address q.host q.past).1 = .error fault := by
  by_cases hretries : 0 ≤ q.settings.retry.maxRetries
  · obtain ⟨events, delays, ending, hevents, htraffic, hlength, -, hends, hresult⟩ :=
      q.settings.fetchAccount_ends q.address q.host
        (q.settings.accountStart q.address q.host q.past) hretries
    have hlast : q.accountReply = some _ := Net.lastReply_of_repeated hevents htraffic
    have hattempts : q.accountAttempts = delays.length + 1 := by
      rw [accountAttempts, hevents, Journal.since, List.drop_left,
        Journal.requests_of_traffic _ _ htraffic, List.length_replicate]
    have hnumber : (q.accountAttempts : Int) - 1 = (delays.length : Nat) := by omega
    cases hends with
    | answered hv => exact absurd ⟨_, hlast, Client.value_eq_ok_iff.1 ⟨_, hv⟩⟩ h
    | failed hfault last =>
      refine Or.inl ⟨hresult, fun e hlacks => ?_⟩
      obtain ⟨reply, fault, hreply, hvalue, hpasses⟩ := hlacks.passes
      have hmore := hlacks.attempts
      cases hlast.symm.trans hreply
      cases hfault.symm.trans hvalue
      obtain hnone | hfinal := last
      · omega
      · cases hfinal.symm.trans hpasses
    | undelayed hfault more passes delay =>
      refine Or.inr ⟨_, ⟨by omega, ⟨_, _, hlast, hfault, passes⟩, ?_⟩, hresult⟩
      have hdelay : q.settings.retry.delay (delays.length : Nat) = .error _ := delay
      rw [pauseFault?, hnumber, hdelay]
      rfl
    | refused hfault more passes delay refusal =>
      refine Or.inr ⟨_, ⟨by omega, ⟨_, _, hlast, hfault, passes⟩, ?_⟩, hresult⟩
      have hdelay : q.settings.retry.delay (delays.length : Nat) = .ok _ := delay
      rw [pauseFault?, hnumber, hdelay]
      exact refusal
  · refine Or.inl ⟨accountRun_of_neg (by omega), fun e hlacks => ?_⟩
    have hmore := hlacks.attempts
    omega

lemma LacksPause.not_isKnown {fault : Fault} (h : q.LacksPause fault) : ¬ q.IsKnown := by
  obtain ⟨reply, fault, hreply, hvalue, -⟩ := h.passes
  rintro ⟨reply', hreply', hknown⟩
  cases hreply.symm.trans hreply'
  obtain ⟨v, hv⟩ : ∃ v, Client.value q.host.reader true (q.settings.accountRequest q.address).url
      reply = .ok v := Client.value_eq_ok_iff.2 hknown
  cases hvalue.symm.trans hv

/-- A failed lookup of the account ends the query, unless the escrow does so before. -/
lemma result_of_error_of_not_escrowFailsFirst {fault : Fault}
    (h : (q.settings.accountRun q.address q.host q.past).1 = .error fault)
    (hescrow : ¬ q.EscrowFailsFirst) : q.result = .error fault := by
  rw [result_of_error h]
  cases hs : q.host.schedule with
  | last => rfl
  | second => rfl
  | first goesOn =>
    have hcount : ∀ v ∈ q.escrow?, LockedAmounts.AreCountable v := fun v hv =>
      Classical.not_not.1 fun hlarge => hescrow ⟨⟨goesOn, hs⟩, v, hv, hlarge⟩
    rw [WalletSettings.lockedOf_eq hcount]
    rfl

lemma EscrowFailsFirst.result_eq (h : q.EscrowFailsFirst) :
    q.result = .error ArithmeticFault.overflow.toFault := by
  obtain ⟨⟨goesOn, hs⟩, v, hv, hlarge⟩ := h
  have hlocked : WalletSettings.lockedOf q.escrow? = .error ArithmeticFault.overflow.toFault :=
    WalletSettings.lockedOf_of_not_areCountable fun hcount => hlarge (hcount v hv)
  cases haccount : (q.settings.accountRun q.address q.host q.past).1 with
  | error fault =>
    rw [result_of_error haccount, hs, hlocked]
    rfl
  | ok account =>
    rw [result_of_ok haccount, hs, if_neg Schedule.noConfusion, hlocked]
    rfl

/-- **How a query ends.** If the lookup of the account gets no answer, the query fails as the wallet
reports it, whatever the other servers do afterwards; if it gets one, the query returns the balances
of just the three assets. The exceptions are a pause that fails and a reply that cannot be read:
they end the query with a fault of their own, the first in the lookup of the account, the second
after it or, if it is the escrow's and comes before the ledger's, in its place. -/
theorem query_ends_by_replies (q : BalanceQuery) : q.EndsByReplies := by
  constructor
  case unknown =>
    intro hunknown hpause hescrow
    obtain ⟨hfault, -⟩ | ⟨fault, hlacks, -⟩ := accountRun_of_not_isKnown hunknown
    · exact result_of_error_of_not_escrowFailsFirst hfault hescrow
    · exact absurd hlacks (hpause fault)
  case unpaused =>
    intro fault hlacks hescrow
    obtain ⟨-, hnone⟩ | ⟨fault', hlacks', hfault⟩ := accountRun_of_not_isKnown hlacks.not_isKnown
    · exact absurd hlacks (hnone fault)
    · cases hlacks.fails.symm.trans hlacks'.fails
      exact result_of_error_of_not_escrowFailsFirst hfault hescrow
  case escrow_first => exact EscrowFailsFirst.result_eq
  case balances => exact exists_balances
  case unread => exact exists_unread

/-- A line that is no object ends the query with a fault that the wallet does not report. -/
theorem query_of_line_without_fields :
    let q : BalanceQuery := {
      settings := .ofNetwork .testnet
      address := "GAAAAAAAAAAAAAAAAAAAAAAAAAAAAAAAAAAAAAAAAAAAAAAAAAAAAWHF"
      host := { server := Route.server [⟨"https://horizon-testnet.stellar.org/accounts/",
        [replyOf (.object [("balances", .list [.number (.whole 1)])])]⟩] }
      past := [] }
    q.IsKnown ∧ ¬ ((∃ b, q.result = .ok b) ∨ q.result = .error WalletBalances.unavailable) := by
  intro q
  have hreply : q.accountReply
      = some (replyOf (.object [("balances", .list [.number (.whole 1)])])) := by
    decide +kernel
  have hresult : q.result.map (fun _ => ()) = .error BalanceLine.unreadable := by decide +kernel
  have hvalue : ((replyOf (.object [("balances", .list [.number (.whole 1)])])).value?
      q.host.reader).isSome = true := by decide +kernel
  refine ⟨⟨_, hreply, Or.inr (Option.isSome_iff_exists.1 hvalue)⟩, ?_⟩
  rintro (⟨b, hb⟩ | hunavailable)
  · rw [hb] at hresult
    cases hresult
  · rw [hunavailable] at hresult
    cases hresult

end BalanceQuery

end StellarWallet
