import Mathlib.Data.List.Pairwise
import StellarWallet.Proofs.Balance.Failures
import StellarWallet.Proofs.Http.TwoServers

/-!
The order of the lines of an account.

An account shows an asset on one line at most. What a query reports of an asset is what that line
says, wherever it stands and whichever lines of other assets and of other issuers stand around it.
-/

namespace StellarWallet

/-- A search finds the same in two lists that hold the same items of the wanted kind, if the first
holds no two of them. -/
lemma find?_congr_of_unique {α : Type} {p : α → Bool} {xs ys : List α}
    (hone : ∀ x ∈ xs, ∀ y ∈ xs, p x = true → p y = true → x = y)
    (hsame : ∀ x, p x = true → (x ∈ ys ↔ x ∈ xs)) : ys.find? p = xs.find? p := by
  cases hx : xs.find? p with
  | none =>
    rw [List.find?_eq_none] at hx ⊢
    exact fun y hy hp => hx y ((hsame y hp).1 hy) hp
  | some x =>
    have hpx := List.find?_some hx
    have hmem := List.mem_of_find?_eq_some hx
    cases hy : ys.find? p with
    | none => exact absurd hpx (List.find?_eq_none.1 hy x ((hsame x hpx).2 hmem))
    | some y =>
      have hpy := List.find?_some hy
      have hmemy := (hsame y hpy).1 (List.mem_of_find?_eq_some hy)
      rw [hone y hmemy x hmem hpy hpx]

namespace BalanceLine

variable {line : List (String × Value)} {key text : String}

lemma hasText_iff : hasText line key text = true ↔ Fields.lookup key line = some (.text text) := by
  rw [hasText]
  split
  · next s hs => rw [hs, decide_eq_true_iff, Option.some_inj, Value.text.injEq]
  · next hother =>
    refine ⟨nofun, fun h => absurd h (hother text)⟩

lemma isClassic_iff {a : Asset} {issuer : String} (h : issuer ≠ "") :
    isClassic a (some issuer) line = true ↔
      Fields.lookup "asset_type" line ≠ some (.text "native") ∧
        Fields.lookup "asset_code" line = some (.text (Vocabulary.name a)) ∧
        Fields.lookup "asset_issuer" line = some (.text issuer) := by
  rw [isClassic, Bool.and_eq_true, Bool.and_eq_true, Bool.not_eq_true', Bool.or_eq_true,
    decide_eq_true_iff, hasText_iff, hasText_iff, ← Bool.not_eq_true, isNative, hasText_iff,
    and_assoc, or_iff_right h]

end BalanceLine

namespace WalletSettings

variable (s : WalletSettings)

/-- Every asset but XLM that is kept on the ledger has an issuer. -/
def HasIssuers : Prop :=
  ∀ a, a ≠ .xlm → s.IsOnLedger a → ∃ issuer, (s.assets a).issuer = some issuer ∧ issuer ≠ ""

/-- A line shows an asset as the settings keep it: XLM by its type, and any other by exactly its
code and its issuer. -/
def Shows (a : Asset) (line : List (String × Value)) : Prop :=
  match a with
  | .xlm => Fields.lookup "asset_type" line = some (.text "native")
  | a => Fields.lookup "asset_type" line ≠ some (.text "native") ∧
      Fields.lookup "asset_code" line = some (.text (Vocabulary.name a)) ∧
      ∃ issuer, (s.assets a).issuer = some issuer ∧
        Fields.lookup "asset_issuer" line = some (.text issuer)

/-- No two of the lines show the same asset of the ledger. -/
def ShowsOnce (ls : List (List (String × Value))) : Prop :=
  ls.Pairwise fun l l' => ∀ a, s.IsOnLedger a → ¬ (s.Shows a l ∧ s.Shows a l')

/-- The lines in any order, and among others that show no asset of the settings. -/
def Rearranged (ls ls' : List (List (String × Value))) : Prop :=
  ∃ others, (∀ l ∈ others, ∀ a, s.IsOnLedger a → ¬ s.Shows a l) ∧ ls'.Perm (ls ++ others)

/-- An account, and the same one with its lines rearranged. -/
structure SameLines (account account' : Value) : Prop where
  isAccount : BalanceLine.IsAccount account
  isAccount' : BalanceLine.IsAccount account'
  once : s.ShowsOnce (BalanceLine.lines account)
  rearranged : s.Rearranged (BalanceLine.lines account) (BalanceLine.lines account')

variable {s} {a : Asset} {account account' : Value} {line line' : List (String × Value)}
  {ls ls' : List (List (String × Value))}

lemma fits_iff (hissuers : s.HasIssuers) (ha : s.IsOnLedger a) :
    s.fits a line = true ↔ s.Shows a line := by
  have hclassic (hne : a ≠ .xlm) : BalanceLine.isClassic a (s.assets a).issuer line = true ↔
      Fields.lookup "asset_type" line ≠ some (.text "native") ∧
        Fields.lookup "asset_code" line = some (.text (Vocabulary.name a)) ∧
        ∃ issuer, (s.assets a).issuer = some issuer ∧
          Fields.lookup "asset_issuer" line = some (.text issuer) := by
    obtain ⟨issuer, hissuer, hfilled⟩ := hissuers a hne ha
    simp only [hissuer, BalanceLine.isClassic_iff hfilled, Option.some_inj, exists_eq_left']
  cases a with
  | xlm => exact BalanceLine.hasText_iff
  | usdc => exact hclassic (by decide)
  | arenax => exact hclassic (by decide)

lemma ShowsOnce.eq_of_shows (h : s.ShowsOnce ls) (ha : s.IsOnLedger a) (hmem : line ∈ ls)
    (hmem' : line' ∈ ls) (hshows : s.Shows a line) (hshows' : s.Shows a line') : line = line' := by
  by_contra hne
  have hsymm : Std.Symm fun l l' : List (String × Value) =>
      ∀ a, s.IsOnLedger a → ¬ (s.Shows a l ∧ s.Shows a l') :=
    ⟨fun _ _ h a ha hboth => h a ha hboth.symm⟩
  exact List.Pairwise.forall h hmem hmem' hne a ha ⟨hshows, hshows'⟩

lemma Rearranged.mem_iff (h : s.Rearranged ls ls') (ha : s.IsOnLedger a)
    (hshows : s.Shows a line) : line ∈ ls' ↔ line ∈ ls := by
  obtain ⟨others, hothers, hperm⟩ := h
  rw [hperm.mem_iff, List.mem_append]
  exact or_iff_left fun hmem => hothers line hmem a ha hshows

/-- The line that counts for an asset is the one that shows it. -/
lemma line?_eq_find? (h : BalanceLine.IsAccount account) (a : Asset) :
    s.line? a account = (BalanceLine.lines account).find? (s.fits a) := by
  have hitems := BalanceLine.items?_of_isAccount h
  rw [s.line?_eq hitems, ← (BalanceLine.ofAccount_eq hitems).2]

lemma line?_of_shows (hissuers : s.HasIssuers) (h : BalanceLine.IsAccount account)
    (honce : s.ShowsOnce (BalanceLine.lines account)) (ha : s.IsOnLedger a)
    (hmem : line ∈ BalanceLine.lines account) (hshows : s.Shows a line) :
    s.line? a account = some line := by
  rw [line?_eq_find? h]
  cases hfound : (BalanceLine.lines account).find? (s.fits a) with
  | none => exact absurd ((fits_iff hissuers ha).2 hshows) (List.find?_eq_none.1 hfound line hmem)
  | some l =>
    have hl : s.Shows a l := (fits_iff hissuers ha).1 (List.find?_some hfound)
    rw [honce.eq_of_shows ha (List.mem_of_find?_eq_some hfound) hmem hl hshows]

lemma line?_of_not_shows (hissuers : s.HasIssuers) (h : BalanceLine.IsAccount account)
    (ha : s.IsOnLedger a) (hnone : ∀ l ∈ BalanceLine.lines account, ¬ s.Shows a l) :
    s.line? a account = none := by
  rw [line?_eq_find? h, List.find?_eq_none]
  exact fun l hl hfits => hnone l hl ((fits_iff hissuers ha).1 hfits)

lemma shows_of_line? (hissuers : s.HasIssuers) (h : BalanceLine.IsAccount account)
    (ha : s.IsOnLedger a) (hline : s.line? a account = some line) :
    line ∈ BalanceLine.lines account ∧ s.Shows a line := by
  rw [line?_eq_find? h] at hline
  exact ⟨List.mem_of_find?_eq_some hline, (fits_iff hissuers ha).1 (List.find?_some hline)⟩

lemma SameLines.line?_eq (hissuers : s.HasIssuers) (h : s.SameLines account account')
    (ha : s.IsOnLedger a) : s.line? a account' = s.line? a account := by
  rw [line?_eq_find? h.isAccount, line?_eq_find? h.isAccount']
  refine find?_congr_of_unique ?_ ?_
  · intro l hl l' hl' hfits hfits'
    exact h.once.eq_of_shows ha hl hl' ((fits_iff hissuers ha).1 hfits)
      ((fits_iff hissuers ha).1 hfits')
  · exact fun l hfits => h.rearranged.mem_iff ha ((fits_iff hissuers ha).1 hfits)

/-! ### The balances that an account gives -/

variable {contract : Binary64} {locked : LockedAmounts}

/-- An account can be read if the lines that count show no amount that is too large. -/
lemma canRead_iff (h : BalanceLine.IsAccount account) : s.CanRead account ↔
    ∀ a, s.IsOnLedger a →
      Amount.IsCountable ((s.line? a account).bind (Fields.lookup "balance")) := by
  constructor
  · rintro ⟨items, -, hread⟩ a ha
    exact (hread a ha).2
  · intro hcount
    exact ⟨_, BalanceLine.items?_of_isAccount h,
      fun a ha => ⟨BalanceLine.isSearchable_map_object _, hcount a ha⟩⟩

/-- An account fails to give balances only because of an amount that is too large. -/
lemma eq_overflow_of_balances (h : BalanceLine.IsAccount account) {fault : Fault}
    (hfault : s.balances account contract locked = .error fault) :
    fault = ArithmeticFault.overflow.toFault := by
  have hlines := (BalanceLine.ofAccount_eq (BalanceLine.items?_of_isAccount h)).1
  have hfind (p : List (String × Value) → Bool) :
      BalanceLine.find? p ((BalanceLine.lines account).map .object) ≠ .error fault := by
    rw [BalanceLine.find?_eq (BalanceLine.isSearchable_map_object _)]
    exact nofun
  have hamount {line : Option Value} (hl : lineAmount line = .error fault) :
      fault = ArithmeticFault.overflow.toFault := by
    rw [lineAmount] at hl
    by_cases hc : Amount.IsCountable (line.bind (·.field? "balance"))
    · rw [Amount.ofValue?_eq hc] at hl
      cases hl
    · rw [Amount.ofValue?_of_not_isCountable hc] at hl
      cases hl
      rfl
  rw [balances, hlines, ok_bind] at hfault
  obtain hfault | ⟨line, -, hfault⟩ := bind_eq_error hfault
  · exact absurd hfault (hfind _)
  obtain hfault | ⟨xlm, -, hfault⟩ := bind_eq_error hfault
  · exact hamount hfault
  obtain hfault | ⟨usdcLine, -, hfault⟩ := bind_eq_error hfault
  · exact absurd hfault (hfind _)
  obtain hfault | ⟨usdc, -, hfault⟩ := bind_eq_error hfault
  · exact hamount hfault
  dsimp only at hfault
  split at hfault
  · cases hfault
  · obtain hfault | ⟨line, -, hfault⟩ := bind_eq_error hfault
    · exact absurd hfault (hfind _)
    obtain hfault | ⟨arenax, -, hfault⟩ := bind_eq_error hfault
    · exact hamount hfault
    cases hfault

lemma balances_of_not_canRead (h : BalanceLine.IsAccount account) (hread : ¬ s.CanRead account) :
    s.balances account contract locked = .error ArithmeticFault.overflow.toFault := by
  cases hb : s.balances account contract locked with
  | ok b => exact absurd (canRead_of_balances hb) hread
  | error fault => rw [eq_overflow_of_balances h hb]

lemma isNull_of_isAccount (h : BalanceLine.IsAccount account) : account.isNull = false := by
  obtain ⟨fields, rfl, -⟩ := h
  rfl

/-- Rearranging the lines of an account changes nothing in the balances. -/
lemma SameLines.balances_eq (hissuers : s.HasIssuers) (h : s.SameLines account account') :
    s.balances account' contract locked = s.balances account contract locked := by
  have hread : s.CanRead account' ↔ s.CanRead account := by
    rw [canRead_iff h.isAccount, canRead_iff h.isAccount']
    refine forall_congr' fun a => forall_congr' fun ha => ?_
    rw [h.line?_eq hissuers ha]
  by_cases hcan : s.CanRead account
  · rw [s.balances_eq hcan, s.balances_eq (hread.2 hcan)]
    refine congrArg (fun b : WalletBalances => Except.ok b) (funext fun a => ?_)
    -- An asset in a contract is the only one that no line is looked up for.
    by_cases hsourced : a = .arenax ∧ s.isContractSourced = true
    · simp only [availableOf, trustOf, if_pos hsourced, isNull_of_isAccount h.isAccount,
        isNull_of_isAccount h.isAccount']
    · have ha : s.IsOnLedger a :=
        fun heq => Bool.eq_false_iff.2 fun hs => hsourced ⟨heq, hs⟩
      simp only [availableOf, trustOf, if_neg hsourced, h.line?_eq hissuers ha]
  · rw [balances_of_not_canRead h.isAccount hcan,
      balances_of_not_canRead h.isAccount' (mt hread.1 hcan)]

/-! ### A query on two hosts -/

section

open Net (RunsAlike)

variable (s) {host host' : Host} (h : host.AlikeUpTo s.SameLines host') (address : String)
include h

lemma fetchAccount_runsAlike :
    RunsAlike host host' (Relation.ReflGen s.SameLines) (s.fetchAccount address)
      (s.fetchAccount address) := by
  have hcall : RunsAlike host host' (Relation.ReflGen s.SameLines) (s.accountCall address)
      (s.accountCall address) := Client.call_runsAlike h s.ledgerClient true _ _
  rw [fetchAccount, getOptional_account]
  refine hcall.outcome.bind fun account account' haccount => ?_
  cases haccount with
  | error e =>
    refine .silent (fun _ => .refl) fun j => ?_
    cases e <;> rfl
  | ok hlines =>
    cases hlines with
    | refl =>
      refine .silent (fun _ => .refl) fun j => ?_
      dsimp only
      split <;> rfl
    | single hlines =>
      dsimp only
      rw [isNull_of_isAccount hlines.isAccount, isNull_of_isAccount hlines.isAccount']
      exact RunsAlike.pure (.single hlines)

/-- A lookup with options gets the same reply from both hosts. -/
lemma fetchOptional_runsAlike (endpoint : Option String) (context complaint : String)
    {options : List (String × Value)} (hoptions : Fields.erase "timeout" options ≠ []) :
    RunsAlike host host' Eq (s.fetchOptional endpoint context complaint options)
      (s.fetchOptional endpoint context complaint options) := by
  cases hend : endpoint.filter (· ≠ "") with
  | none =>
    refine .silent Eq.refl fun j => ?_
    rw [s.fetchOptional_of_isUnset _ j hend, s.fetchOptional_of_isUnset _ j hend]
  | some link =>
    have hreply (past : List Request) :
        host'.server past (s.serviceClient.request .get link options)
          = host.server past (s.serviceClient.request .get link options) :=
      (h.replies past _).resolve_right fun hempty => hoptions hempty.1
    have hget : RunsAlike host host' Eq (s.serviceClient.get link context options)
        (s.serviceClient.get link context options) := by
      refine .silent Eq.refl fun j => ?_
      rw [Client.get, Client.call_of_never rfl, Client.call_of_never rfl, hreply, h.reader]
    rw [fetchOptional, hend]
    refine hget.outcome.bind fun ending ending' hending => ?_
    obtain rfl := hending.eq
    refine .silent Eq.refl fun j => ?_
    cases ending' with
    | ok v => rfl
    | error e => cases e <;> rfl

lemma fetchContract_runsAlike :
    RunsAlike host host' Eq (s.fetchContract address) (s.fetchContract address) := by
  refine (s.fetchOptional_runsAlike h _ _ _ ?_).bind ?_
  · exact List.cons_ne_nil _ _
  rintro reply _ rfl
  exact (RunsAlike.ofExcept (Net.endsAlike_refl Eq.refl _)).mapError _

lemma fetchLocked_runsAlike :
    RunsAlike host host' Eq (s.fetchLocked address) (s.fetchLocked address) := by
  refine (s.fetchOptional_runsAlike h _ _ _ ?_).bind ?_
  · exact List.cons_ne_nil _ _
  rintro reply _ rfl
  cases reply with
  | none => exact .pure rfl
  | some v => exact (RunsAlike.ofExcept (Net.endsAlike_refl Eq.refl _)).mapError _

/-- What the two hosts tell of an account and of its balance in a contract. -/
lemma fetchAfterAccount_runsAlike {account account' : Except Fault Value}
    (haccount : Net.EndsAlike (Relation.ReflGen s.SameLines) account account') :
    RunsAlike host host'
      (fun found found' => Relation.ReflGen s.SameLines found.1 found'.1 ∧ found'.2 = found.2)
      (s.fetchAfterAccount address account) (s.fetchAfterAccount address account') := by
  refine (RunsAlike.ofExcept haccount).bind fun account account' hlines => ?_
  split
  · refine (s.fetchContract_runsAlike h address).bind ?_
    rintro held _ rfl
    exact .pure ⟨hlines, rfl⟩
  · exact .pure ⟨hlines, rfl⟩

/-- What the lookups find is the same but for the lines of the account. -/
def FindsAlike (found found' : (Value × Binary64) × LockedAmounts) : Prop :=
  (Relation.ReflGen s.SameLines found.1.1 found'.1.1 ∧ found'.1.2 = found.1.2) ∧
    found'.2 = found.2

omit h in
variable {s} in
lemma ofExcept_runsAlike {main main' : Except Fault (Value × Binary64)}
    (hmain : Net.EndsAlike (fun found found' =>
      Relation.ReflGen s.SameLines found.1 found'.1 ∧ found'.2 = found.2) main main')
    (locked : LockedAmounts) :
    RunsAlike host host' s.FindsAlike (do return (← Net.ofExcept main, locked))
      (do return (← Net.ofExcept main', locked)) :=
  (RunsAlike.ofExcept hmain).bind fun _ _ hfound => .pure ⟨hfound, rfl⟩

lemma lookUp_runsAlike (schedule : Schedule) :
    RunsAlike host host' s.FindsAlike (s.lookUp address schedule) (s.lookUp address schedule) := by
  have haccount := s.fetchAccount_runsAlike h address
  have hlocked := s.fetchLocked_runsAlike h address
  have hrefl (locked : Except Fault LockedAmounts) : RunsAlike host host' Eq
      (Net.ofExcept locked) (Net.ofExcept locked) :=
    .ofExcept (Net.endsAlike_refl Eq.refl locked)
  cases schedule with
  | last =>
    refine haccount.outcome.bind fun account account' haccount => ?_
    refine (s.fetchAfterAccount_runsAlike h address haccount).outcome.bind
      fun main main' hmain => ?_
    refine hlocked.outcome.bind fun locked locked' hlocked => ?_
    obtain rfl := hlocked.eq
    refine (RunsAlike.ofExcept hmain).bind fun found found' hfound => ?_
    refine (hrefl locked').bind ?_
    rintro locked _ rfl
    exact .pure ⟨hfound, rfl⟩
  | second =>
    refine haccount.outcome.bind fun account account' haccount => ?_
    refine hlocked.outcome.bind fun locked locked' hlocked => ?_
    obtain rfl := hlocked.eq
    refine (s.fetchAfterAccount_runsAlike h address haccount).outcome.bind
      fun main main' hmain => ?_
    refine (RunsAlike.ofExcept haccount).bind fun _ _ _ => ?_
    refine (hrefl locked').bind ?_
    rintro locked _ rfl
    exact ofExcept_runsAlike hmain locked
  | first goesOn =>
    refine hlocked.outcome.bind fun locked locked' hlocked => ?_
    obtain rfl := hlocked.eq
    refine haccount.outcome.bind fun account account' haccount => ?_
    have hmain : RunsAlike host host' s.FindsAlike
        (do
          let main ← (s.fetchAfterAccount address account).outcome
          let locked ← Net.ofExcept locked'
          return (← Net.ofExcept main, locked))
        (do
          let main ← (s.fetchAfterAccount address account').outcome
          let locked ← Net.ofExcept locked'
          return (← Net.ofExcept main, locked)) := by
      refine (s.fetchAfterAccount_runsAlike h address haccount).outcome.bind ?_
      intro main main' hmain
      refine (hrefl locked').bind ?_
      rintro locked _ rfl
      exact ofExcept_runsAlike hmain locked
    cases goesOn with
    | true => exact hmain
    | false => exact (hrefl locked').bind fun _ _ _ => hmain

/-- A query does the same on both hosts and ends in the same way. -/
lemma fetchBalances_runsAlike (hissuers : s.HasIssuers) :
    RunsAlike host host' Eq (s.fetchBalances address) (s.fetchBalances address) := by
  refine RunsAlike.ofHost.bind ?_
  rintro _ _ ⟨rfl, rfl⟩
  rw [h.schedule]
  refine (s.lookUp_runsAlike h address _).bind ?_
  rintro ⟨⟨account, _⟩, _⟩ ⟨⟨account', contract⟩, locked⟩ ⟨⟨haccount, rfl⟩, rfl⟩
  have hsame : s.balances account' contract locked = s.balances account contract locked := by
    cases haccount with
    | refl => rfl
    | single hlines => exact hlines.balances_eq hissuers
  dsimp only
  rw [hsame]
  refine (RunsAlike.ofExcept (Net.endsAlike_refl Eq.refl _)).bind ?_
  rintro balances _ rfl
  exact (RunsAlike.note _ _ _).bind fun _ _ _ => .pure rfl

end

end WalletSettings

namespace BalanceQuery

variable {q q' : BalanceQuery} {account : Value}

/-- The same query on a host that replies alike but may show the lines of an account, which
alone is asked for without options, in another order and among others. -/
structure Rearranges (q q' : BalanceQuery) : Prop where
  settings : q'.settings = q.settings
  address : q'.address = q.address
  past : q'.past = q.past
  host : q.host.AlikeUpTo q.settings.SameLines q'.host

/-- No amount that counts is a whole number too large for binary64: none on the lines that show an
asset, none in the contract and none that is locked. -/
structure AmountsFit (q : BalanceQuery) (account : Value) : Prop where
  shown : ∀ a, q.settings.IsOnLedger a → ∀ l ∈ BalanceLine.lines account, q.settings.Shows a l →
    Amount.IsCountable (Fields.lookup "balance" l)
  contract : Amount.IsCountable (WalletSettings.heldIn q.contract?)
  escrow : ∀ v ∈ q.escrow?, LockedAmounts.AreCountable v

/-- What is reported of an asset of the ledger is what its line says. -/
structure ReportsLines (q : BalanceQuery) (account : Value) (b : WalletBalances) : Prop where
  shown : ∀ a, q.settings.IsOnLedger a → ∀ l ∈ BalanceLine.lines account, q.settings.Shows a l →
    (b a).available = .real (Amount.counted (Fields.lookup "balance" l)) ∧
      (b a).hasTrustline = true
  /-- Without a line there is nothing, and no trust but in XLM. -/
  absent : ∀ a, q.settings.IsOnLedger a →
    (∀ l ∈ BalanceLine.lines account, ¬ q.settings.Shows a l) →
    (b a).available = .real (.zero false) ∧ ((b a).hasTrustline = true ↔ a = .xlm)

lemma isKnown_of_account? (h : q.account? = some account) : q.IsKnown := by
  obtain ⟨reply, hreply, hv⟩ := Option.bind_eq_some_iff.1 h
  exact ⟨reply, hreply, Or.inr ⟨account, hv⟩⟩

section

variable (hissuers : q.settings.HasIssuers) (h : q.account? = some account)
  (haccount : BalanceLine.IsAccount account)
  (honce : q.settings.ShowsOnce (BalanceLine.lines account))
include hissuers h haccount honce

lemma isReadable_iff_amountsFit : q.IsReadable ↔ q.AmountsFit account := by
  have hread : q.settings.CanRead (q.account?.getD .null) ↔
      ∀ a, q.settings.IsOnLedger a → ∀ l ∈ BalanceLine.lines account, q.settings.Shows a l →
        Amount.IsCountable (Fields.lookup "balance" l) := by
    rw [h, Option.getD_some, WalletSettings.canRead_iff haccount]
    refine forall_congr' fun a => forall_congr' fun ha => ?_
    constructor
    · intro hcount l hl hshows
      rw [WalletSettings.line?_of_shows hissuers haccount honce ha hl hshows] at hcount
      exact hcount
    · intro hcount
      cases hline : q.settings.line? a account with
      | none => exact fun n hn => nomatch hn
      | some l =>
        obtain ⟨hl, hshows⟩ := WalletSettings.shows_of_line? hissuers haccount ha hline
        exact hcount l hl hshows
  exact ⟨fun hr => ⟨hread.1 hr.account, hr.contract, hr.escrow⟩,
    fun hf => ⟨hread.2 hf.shown, hf.contract, hf.escrow⟩⟩

lemma exists_reportsLines (hfit : q.AmountsFit account) :
    ∃ b, q.result = .ok b ∧ q.ReportsLines account b := by
  have hreadable := (isReadable_iff_amountsFit hissuers h haccount honce).2 hfit
  refine ⟨_, result_eq (isKnown_of_account? h) hreadable, ?_⟩
  have hoff {a : Asset} (ha : q.settings.IsOnLedger a) :
      ¬ (a = .arenax ∧ q.settings.isContractSourced = true) :=
    fun hc => Bool.false_ne_true ((ha hc.1).symm.trans hc.2)
  rw [h, Option.getD_some]
  constructor
  case shown =>
    intro a ha l hl hshows
    have hline := WalletSettings.line?_of_shows hissuers haccount honce ha hl hshows
    constructor
    · change Number.real (q.settings.availableOf _ _ a) = _
      rw [WalletSettings.availableOf, if_neg (hoff ha), hline]
      rfl
    · change q.settings.trustOf _ a = true
      rw [WalletSettings.trustOf, if_neg (hoff ha), hline, Option.isSome_some, Bool.or_true]
  case absent =>
    intro a ha hnone
    have hline := WalletSettings.line?_of_not_shows hissuers haccount ha hnone
    constructor
    · change Number.real (q.settings.availableOf _ _ a) = _
      rw [WalletSettings.availableOf, if_neg (hoff ha), hline]
      rfl
    · change q.settings.trustOf _ a = true ↔ _
      rw [WalletSettings.trustOf, if_neg (hoff ha), hline, Option.isSome_none, Bool.or_false,
        decide_eq_true_iff]

lemma result_of_not_amountsFit (hfit : ¬ q.AmountsFit account) :
    q.result = .error ArithmeticFault.overflow.toFault := by
  rw [← isReadable_iff_amountsFit hissuers h haccount honce] at hfit
  rw [result_of_ok (isKnown_of_account? h).accountRun_eq]
  by_cases hescrow : ∀ v ∈ q.escrow?, LockedAmounts.AreCountable v
  · rw [WalletSettings.lockedOf_eq hescrow]
    by_cases hcontract : Amount.IsCountable (WalletSettings.heldIn q.contract?)
    · have hread : ¬ q.settings.CanRead account := by
        intro hread
        exact hfit ⟨by rw [h]; exact hread, hcontract, hescrow⟩
      rw [WalletSettings.heldOf_eq hcontract, ok_bind, ok_bind, ok_bind, ok_bind, ite_self, h,
        Option.getD_some, WalletSettings.balances_of_not_canRead haccount hread]
    · rw [WalletSettings.heldOf_of_not_isCountable hcontract]
      exact ite_self _
  · rw [WalletSettings.lockedOf_of_not_areCountable hescrow]
    by_cases hcontract : Amount.IsCountable (WalletSettings.heldIn q.contract?)
    · rw [WalletSettings.heldOf_eq hcontract]
      exact ite_self _
    · rw [WalletSettings.heldOf_of_not_isCountable hcontract]
      exact ite_self _

end

/-- **The order of the lines does not matter.** If the lines of an account show each asset once at
most, a query has the same result however they are ordered, and whatever lines of other assets or of
other issuers stand among them: of an asset with a line it reports what that line says, and of one
without a line nothing, and no trust but in XLM. It has no balances to report just if an amount that
counts is a whole number too large, and then in no order. -/
theorem lines_count_in_any_order (hissuers : q.settings.HasIssuers) (h : q.Rearranges q') :
    q'.result = q.result ∧
    ∀ account, q.account? = some account → BalanceLine.IsAccount account →
      q.settings.ShowsOnce (BalanceLine.lines account) →
      (q.AmountsFit account → ∃ b, q.result = .ok b ∧ q.ReportsLines account b) ∧
      (¬ q.AmountsFit account → q.result = .error ArithmeticFault.overflow.toFault) := by
  refine ⟨?_, ?_⟩
  · have hruns := q.settings.fetchBalances_runsAlike h.host q.address hissuers
    rw [result, result, h.settings, h.address, h.past]
    exact (hruns.ending q.past).eq
  · intro account haccount hlines honce
    exact ⟨exists_reportsLines hissuers haccount hlines honce,
      result_of_not_amountsFit hissuers haccount hlines honce⟩

/-- An account with some lines. -/
def accountOf (ls : List (List (String × Value))) : Value :=
  .object [("balances", .list (ls.map .object))]

/-- A query of a wallet with an issuer for each asset, put to a ledger that shows some lines. -/
def ofLines (ls : List (List (String × Value))) : BalanceQuery where
  settings := { WalletSettings.ofNetwork .testnet with
    assets := .ofIssuers (some "I1") (some "I2") none }
  address := "G1"
  host := {
    server := fun _ request =>
      if request.options.isEmpty then replyOf (accountOf ls) else Route.unreachable }
  past := []

section

variable {ls ls' : List (List (String × Value))}

lemma isAccount_accountOf : BalanceLine.IsAccount (accountOf ls) :=
  ⟨_, rfl, Or.inr (Or.inr ⟨ls, rfl⟩)⟩

lemma lines_accountOf : BalanceLine.lines (accountOf ls) = ls := by
  change (ls.map Value.object).filterMap Value.object? = ls
  rw [List.filterMap_map]
  exact List.filterMap_some

/-- Lines of texts, in each of which no name stands twice, read back. -/
lemma isPlain_accountOf
    (h : ∀ l ∈ ls, (l.map Prod.fst).Nodup ∧ ∀ f ∈ l, ∃ text, f.2 = .text text) :
    (accountOf ls).IsPlain Json.IsReadable 980 := by
  refine Value.isPlain_object.2 ⟨by decide, by simp, List.forall_mem_singleton.2 ?_⟩
  refine Value.isPlain_list.2 ⟨by decide, List.forall_mem_map.2 fun l hl => ?_⟩
  obtain ⟨hnodup, htexts⟩ := h l hl
  refine Value.isPlain_object.2 ⟨by decide, hnodup, fun f hf => ?_⟩
  obtain ⟨text, htext⟩ := htexts f hf
  rw [htext]
  exact Value.isPlain_text text

lemma hasIssuers_ofLines : (ofLines ls).settings.HasIssuers := by
  intro a hne _
  cases a with
  | xlm => exact absurd rfl hne
  | usdc => exact ⟨"I1", rfl, by decide⟩
  | arenax => exact ⟨"I2", rfl, by decide⟩

lemma rearranges_ofLines (hplain : (accountOf ls).IsPlain Json.IsReadable 980)
    (hplain' : (accountOf ls').IsPlain Json.IsReadable 980)
    (hlines : (ofLines ls).settings.SameLines (accountOf ls) (accountOf ls')) :
    (ofLines ls).Rearranges (ofLines ls') := by
  refine ⟨rfl, rfl, rfl, rfl, rfl, rfl, fun past request => ?_⟩
  by_cases hoptions : request.options = []
  · have hreply (ls : List (List (String × Value))) :
        (ofLines ls).host.server past request = replyOf (accountOf ls) :=
      if_pos (List.isEmpty_iff.2 hoptions)
    rw [hreply, hreply]
    exact Or.inr ⟨hoptions, _, _, value?_replyOf hplain, value?_replyOf hplain', hlines⟩
  · have hfilled : ¬ request.options.isEmpty = true := mt List.isEmpty_iff.1 hoptions
    exact Or.inl ((if_neg hfilled).trans (if_neg hfilled).symm)

lemma amountsFit_ofLines (h : ∀ l ∈ ls, Amount.IsCountable (Fields.lookup "balance" l)) :
    (ofLines ls).AmountsFit (accountOf ls) := by
  have hcontract : (ofLines ls).contractReply = none :=
    if_neg fun hsourced => Bool.false_ne_true hsourced.1
  have hescrow : (ofLines ls).escrowReply = none :=
    (ofLines ls).settings.lastReply_fetchLocked _ _ _ rfl
  refine ⟨fun a _ l hl _ => h l (by rwa [lines_accountOf] at hl), ?_, ?_⟩
  · rw [contract?, read, hcontract]
    intro n hn
    cases hn
  · rw [escrow?, read, hescrow]
    intro v hv
    cases hv

end

/-- Seven XLM and three and a half USDC are reported, also where the USDC of a stranger come
first. -/
theorem strange_line_in_front_changes_nothing :
    let xlm := [("asset_type", Value.text "native"), ("balance", .text "7")]
    let usdc := [("asset_code", Value.text "USDC"), ("asset_issuer", .text "I1"),
      ("balance", .text "3.5")]
    let strange := [("asset_code", Value.text "USDC"), ("asset_issuer", .text "I9"),
      ("balance", .text "99")]
    ∃ b, (ofLines [xlm, usdc]).result = .ok b ∧ (ofLines [strange, usdc, xlm]).result = .ok b ∧
      (b .usdc).available = .real (.ofRatio false 7 2) ∧ (b .usdc).hasTrustline = true ∧
      (b .arenax).available = .real (.zero false) ∧ (b .arenax).hasTrustline = false := by
  intro xlm usdc strange
  let s := (ofLines [xlm, usdc]).settings
  have hplain : (accountOf [xlm, usdc]).IsPlain Json.IsReadable 980 :=
    isPlain_accountOf (by simp [xlm, usdc, -Prod.forall])
  have hplain' : (accountOf [strange, usdc, xlm]).IsPlain Json.IsReadable 980 :=
    isPlain_accountOf (by simp [xlm, usdc, strange, -Prod.forall])
  have hnative : ¬ s.Shows .xlm usdc := by simp [usdc, WalletSettings.Shows, Fields.lookup]
  have husdc : s.Shows .usdc usdc := ⟨hnative, rfl, "I1", rfl, rfl⟩
  have honce : s.ShowsOnce [xlm, usdc] := by
    refine List.pairwise_pair.2 fun a _ => ?_
    cases a with
    | xlm => exact fun hboth => hnative hboth.2
    | usdc => exact fun hboth => hboth.1.1 rfl
    | arenax => exact fun hboth => hboth.1.1 rfl
  have harenax : ∀ l ∈ [xlm, usdc], ¬ s.Shows .arenax l := by
    simp [xlm, usdc, WalletSettings.Shows, Fields.lookup, Vocabulary.name]
  have hstrange (a : Asset) : ¬ s.Shows a strange := by
    cases a with
    | xlm => simp [strange, WalletSettings.Shows, Fields.lookup]
    | usdc =>
      rintro ⟨-, -, issuer, hissuer, hline⟩
      cases hissuer
      exact absurd hline (by simp [strange, Fields.lookup])
    | arenax =>
      rintro ⟨-, hcode, -⟩
      exact absurd hcode (by simp [strange, Fields.lookup, Vocabulary.name])
  have haccount : (ofLines [xlm, usdc]).account? = some (accountOf [xlm, usdc]) := by
    have hreply : (ofLines [xlm, usdc]).accountReply = some (replyOf (accountOf [xlm, usdc])) := by
      decide +kernel
    rw [account?, read, hreply, Option.bind_some, value?_replyOf hplain]
  have hlines : s.SameLines (accountOf [xlm, usdc]) (accountOf [strange, usdc, xlm]) := by
    refine ⟨isAccount_accountOf, isAccount_accountOf, ?_, ?_⟩
    · rw [lines_accountOf]
      exact honce
    · rw [lines_accountOf, lines_accountOf]
      exact ⟨[strange], fun l hl a _ => List.mem_singleton.1 hl ▸ hstrange a,
        List.reverse_perm [xlm, usdc, strange]⟩
  obtain ⟨hsame, hreport⟩ :=
    lines_count_in_any_order hasIssuers_ofLines (rearranges_ofLines hplain hplain' hlines)
  obtain ⟨b, hb, hshows⟩ := (hreport _ haccount isAccount_accountOf hlines.once).1
    (amountsFit_ofLines (by simp [xlm, usdc, Amount.IsCountable, Fields.lookup]))
  obtain ⟨hheld, htrust⟩ :=
    hshows.shown .usdc (fun _ => rfl) usdc (by simp [lines_accountOf]) husdc
  obtain ⟨hnothing, hnone⟩ := hshows.absent .arenax (fun _ => rfl) (by
    rw [lines_accountOf]
    exact harenax)
  refine ⟨b, hb, hsame.trans hb, ?_, htrust, hnothing, ?_⟩
  · rw [hheld]
    decide +kernel
  · exact Bool.eq_false_iff.2 fun htrusted => absurd (hnone.1 htrusted) (by decide)

end BalanceQuery

end StellarWallet
