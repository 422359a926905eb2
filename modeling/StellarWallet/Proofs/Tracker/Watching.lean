import StellarWallet.Proofs.Tracker.Announcements

/-!
Watching a tracker changes nothing.

Toasts and listeners are there to be looked at: two runs that differ in nothing else come to the
same results, the same history in memory and in store, and the same talk with the ledgers, while
every listener that stays subscribed hears of each change of the history once.
-/

namespace StellarWallet

namespace LiveStep

/-- A step within the assumptions on what work hands over and on how writes are refused. -/
def IsTame : LiveStep → Prop
  | .track step => step.IsTame
  | .ask _ => True

/-- A step that neither starts nor ends a subscription of some code. -/
def Spares (key : Nat) : LiveStep → Prop
  | .track step => step.Spares key
  | .ask _ => True

/-- A step that is for a change of the history itself. -/
def isChange : LiveStep → Bool
  | .track step => step.isChange
  | .ask _ => false

end LiveStep

namespace LiveRun

variable (s : WalletSettings) (host : Host) {r r' : LiveRun} {x : LiveStep}

/-- A step of a live run is a step of the run, or the end of a wait. -/
lemma move?_cases {step : TrackerStep} (h : r.move? s host x = some step) :
    x = .track step ∨ ∃ i ending, x = .ask i ∧ step = .finishConfirmation i ending := by
  cases x with
  | track step' =>
    cases h
    exact Or.inl rfl
  | ask i =>
    unfold move? at h
    dsimp only at h
    split at h
    · cases h
      exact Or.inr ⟨i, _, rfl, rfl⟩
    · cases h
      exact Or.inr ⟨i, _, rfl, rfl⟩
    · cases h

/-- What the moves of a live run have in common. -/
lemma forall_moves {P : TrackerStep → Prop} {Q : LiveStep → Prop}
    (htrack : ∀ step, Q (.track step) → P step)
    (hask : ∀ i ending, P (.finishConfirmation i ending)) {xs : List LiveStep}
    (hxs : ∀ x ∈ xs, Q x) : ∀ step ∈ r.moves s host xs, P step := by
  induction xs generalizing r with
  | nil => simp [moves]
  | cons x xs ih =>
    intro step hstep
    rcases List.mem_append.1 hstep with hstep | hstep
    · rcases move?_cases s host (Option.mem_toList.1 hstep) with rfl | ⟨i, ending, -, rfl⟩
      · exact htrack step (hxs _ (by simp))
      · exact hask i ending
    · exact ih (fun y hy => hxs y (by simp [hy])) step hstep

lemma countP_moves (r : LiveRun) (xs : List LiveStep) :
    (r.moves s host xs).countP (·.isChange) = xs.countP (·.isChange) := by
  induction xs generalizing r with
  | nil => rfl
  | cons x xs ih =>
    have hmove : (r.move? s host x).toList.countP (·.isChange)
        = if x.isChange then 1 else 0 := by
      cases hm : r.move? s host x with
      | none =>
        cases x with
        | track step => cases hm
        | ask i => rfl
      | some step =>
        rw [Option.toList_some, List.countP_singleton]
        rcases move?_cases s host hm with rfl | ⟨i, ending, rfl, rfl⟩
        · rfl
        · rfl
    rw [moves, List.countP_append, ih, List.countP_cons, hmove, Nat.add_comm]

/-- **Watching changes nothing.** Two runs that start alike and take the same steps, apart from
those that dismiss toasts or start and end subscriptions, stay alike: the same becomes of every
call, every draft hands back the same, the history and its storage are the same, and so are all
requests and pauses. As long as writes fail only with faults that are noted, a listener that stays
subscribed is told once of every call that ends, every draft and every drop, after the history has
changed. -/
theorem watching_changes_nothing (h : r.Alike r') {xs xs' : List LiveStep}
    (hxs : xs.filter (!·.isWatching) = xs'.filter (!·.isWatching)) :
    (r.steps s host xs).Alike (r'.steps s host xs') ∧
    r.replies s host xs = r'.replies s host xs' ∧
    ∀ l : Listener, r.run.tracker.Hears l → l.once = false → (∀ x ∈ xs, x.Spares l.key) →
      r.run.tracker.history.Quiet → (∀ c ∈ r.run.calls, c.entry.kind.IsKnown) →
      (∀ x ∈ xs, x.IsTame) →
      (r.steps s host xs).run.tracker.told l.key + r.run.ended
          = r.run.tracker.told l.key + (r.steps s host xs).run.ended
            + xs.countP (·.isChange) ∧
        ∀ before step after, r.moves s host xs = before ++ step :: after →
          (r.run.steps before).Announces step l.key := by
  obtain ⟨hsame, hreplies⟩ := alike_of_filter_eq s host h hxs
  refine ⟨hsame, hreplies, fun l hears ho hspares hq hk htame => ?_⟩
  rw [run_steps, ← countP_moves s host r xs]
  exact TrackerRun.announces_steps hq hk
    (forall_moves s host (fun _ h => h) (fun _ _ => trivial) htame) hears ho
    (forall_moves s host (fun _ h => h) (fun _ _ => trivial) hspares)

/-- A payment under the eyes of a failing listener, with a toast that is dismissed, and the same
payment with no listener and no room for toasts. -/
theorem watched_payment_is_the_same :
    let settings := WalletSettings.ofNetwork .testnet
    let host : Host := { server := fun _ _ => .answer 200 "\x7b\"successful\": true\x7d" }
    let history : History := { storage := { backend := .memory [] } }
    let links : ExplorerLinks := ⟨"https://classic", "https://soroban"⟩
    let listener : Listener := { key := 7, fault? := fun _ _ => some ⟨.runtime, "boom"⟩ }
    let r : LiveRun := { run := { tracker := { history, links, listeners := [listener] }
                                  now := ⟨0, 0⟩ } }
    let r' : LiveRun := { run := { tracker := { history, links, maxToasts := 0 }, now := ⟨0, 0⟩ } }
    let info : TxMeta := ⟨.classic, .withdraw, .xlm, .whole 5, none⟩
    let draft : Draft := { direction := .deposit, asset := .usdc, amount := .whole 1 }
    let xs : List LiveStep := [.track (.start info), .track (.subscribe { key := 8, once := true }),
      .track (.finishWork 0 (.returned (.plain "ab"))), .track (.dismiss "0-000000000001"), .ask 0,
      .track (.append draft), .track .clear]
    let xs' : List LiveStep := [.track (.start info),
      .track (.finishWork 0 (.returned (.plain "ab"))), .ask 0, .track (.append draft),
      .track .clear, .track (.dismiss "none")]
    (r.steps settings host xs).Alike (r'.steps settings host xs') ∧
    r.replies settings host xs = r'.replies settings host xs' ∧
    (r.steps settings host xs).run.tracker.told listener.key = 3 ∧
    (r.steps settings host xs).run.tracker.complaints.isEmpty = false ∧
    ∀ before step after, r.moves settings host xs = before ++ step :: after →
      (r.run.steps before).Announces step listener.key := by
  intro settings host history links listener r r' info draft xs xs'
  have hxs : xs.filter (!·.isWatching) = xs'.filter (!·.isWatching) := rfl
  have h : r.Alike r' := ⟨⟨rfl, rfl, rfl, rfl, rfl⟩, rfl, rfl⟩
  obtain ⟨hsame, hreplies, htold⟩ := watching_changes_nothing settings host h hxs
  have hended : (r.steps settings host xs).run.ended = 1 := by decide +kernel
  have hears : r.run.tracker.Hears listener := rfl
  have hspares : ∀ x ∈ xs, x.Spares listener.key := by
    simp [xs, listener, LiveStep.Spares, TrackerStep.Spares]
  have hquiet : r.run.tracker.history.Quiet := ⟨by simp [r, history], by simp [r, history]⟩
  have hknown : ∀ c ∈ r.run.calls, c.entry.kind.IsKnown := by simp [r]
  have htame : ∀ x ∈ xs, x.IsTame := by
    simp [xs, LiveStep.IsTame, TrackerStep.IsTame, Ending.KindIsText, WorkResult.KindIsText]
  have hheard := htold listener hears rfl hspares hquiet hknown htame
  have hcount := hheard.1
  have hstart : r.run.tracker.told listener.key + 1 + 2 = 3 + r.run.ended := rfl
  have hchanges : xs.countP (·.isChange) = 2 := rfl
  rw [hended, hchanges, hstart] at hcount
  exact ⟨hsame, hreplies, Nat.add_right_cancel hcount, by decide +kernel, hheard.2⟩

end LiveRun

end StellarWallet
