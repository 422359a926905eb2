import StellarWallet.Proofs.Tracker.Independence
import StellarWallet.Proofs.Tracker.Writes

/-!
What listeners are told of the history.

On a quiet history every call that ends, every draft and every drop of the history tells each
listener that stays subscribed so exactly once, after the change has been made, whether the listener
fails or not and whatever becomes of the toasts; nothing else does.
-/

namespace StellarWallet

namespace Tracker

/-- How often code was told of a change of the history. -/
def told (t : Tracker) (key : Nat) : Nat := t.delivered.count (key, .historyChanged)

/-- The listener is subscribed once, and no other listener is the same code. -/
def Hears (t : Tracker) (l : Listener) : Prop := t.listeners.filter (·.key = l.key) = [l]

variable {t : Tracker} {l : Listener} {event : TrackerEvent}

/-! ### Telling -/

lemma deliver_delivered (event : TrackerEvent) (t : Tracker) (l : Listener) :
    (deliver event t l).delivered = t.delivered ++ [(l.key, event)] := by
  rw [deliver_eq]

/-- All that are subscribed are told, whoever ends a subscription meanwhile. -/
lemma notify_delivered (t : Tracker) (event : TrackerEvent) :
    (t.notify event).delivered = t.delivered ++ t.listeners.map fun l => (l.key, event) := by
  have h : ∀ (ls : List Listener) (t : Tracker), (ls.foldl (deliver event) t).delivered
      = t.delivered ++ ls.map fun l => (l.key, event) := by
    intro ls
    induction ls with
    | nil => exact fun t => (List.append_nil _).symm
    | cons l r ih =>
      intro t
      rw [List.foldl_cons, ih, deliver_delivered, List.append_assoc]
      rfl
  exact h t.listeners t

lemma told_notify_toastsChanged (t : Tracker) (key : Nat) :
    (t.notify .toastsChanged).told key = t.told key := by
  rw [told, notify_delivered, List.count_append, told]
  have h : (key, TrackerEvent.historyChanged) ∉ t.listeners.map fun l => (l.key,
      TrackerEvent.toastsChanged) := by simp
  rw [List.count_eq_zero.2 h, Nat.add_zero]

lemma told_notify_historyChanged (h : t.Hears l) :
    (t.notify .historyChanged).told l.key = t.told l.key + 1 := by
  have hcount : (t.listeners.map fun x => (x.key, TrackerEvent.historyChanged)).count
      (l.key, .historyChanged) = (t.listeners.filter (·.key = l.key)).length := by
    rw [List.count, List.countP_map, List.countP_eq_length_filter]
    refine congrArg List.length (List.filter_congr fun x _ => ?_)
    exact Bool.eq_iff_iff.2 (by simp)
  rw [told, notify_delivered, List.count_append, hcount, h, told]
  rfl

/-- To end a subscription of some code leaves those of all other code. -/
lemma filter_dropListener {key key' : Nat} (hk : key' ≠ key) (ls : List Listener) :
    (dropListener key' ls).filter (·.key = key) = ls.filter (·.key = key) := by
  induction ls with
  | nil => rfl
  | cons l r ih =>
    unfold dropListener
    split
    · next hl => rw [List.filter_cons_of_neg (by simp [hl, hk])]
    · rw [List.filter_cons, List.filter_cons, ih]

/-- Telling ends no subscription but those that end themselves. -/
lemma notify_hears (h : t.Hears l) (ho : l.once = false) (event : TrackerEvent) :
    (t.notify event).Hears l := by
  have hothers : ∀ x ∈ t.listeners, x.once = true → x.key ≠ l.key := by
    intro x hx honce hkey
    have hmem : x ∈ t.listeners.filter (·.key = l.key) :=
      List.mem_filter.2 ⟨hx, decide_eq_true hkey⟩
    rw [h, List.mem_singleton] at hmem
    rw [hmem, ho] at honce
    cases honce
  have hfold : ∀ (ls : List Listener) (t : Tracker), (∀ x ∈ ls, x.once = true → x.key ≠ l.key) →
      (ls.foldl (deliver event) t).listeners.filter (·.key = l.key)
        = t.listeners.filter (·.key = l.key) := by
    intro ls
    induction ls with
    | nil => exact fun t _ => rfl
    | cons x r ih =>
      intro t hx
      rw [List.foldl_cons, ih _ fun y hy => hx y (by simp [hy]), deliver_eq]
      dsimp only
      split
      · next honce => exact filter_dropListener (hx x (by simp) honce) _
      · rfl
  exact (hfold t.listeners t hothers).trans h

end Tracker

/-! ### Acts -/

/-- An act that neither starts nor ends a subscription of some code. -/
def TrackerAct.Spares (key : Nat) : TrackerAct → Prop
  | .subscribe l => l.key ≠ key
  | .unsubscribe key' => key' ≠ key
  | _ => True

namespace Tracker

variable {t : Tracker} {l : Listener} {a : TrackerAct}

lemma hears_act (h : t.Hears l) (ho : l.once = false) (ha : a.Spares l.key) :
    (t.act a).Hears l := by
  -- Apart from the subscriptions themselves an act at most tells a tracker with these listeners.
  have htell : ∀ (t' : Tracker) event, t'.listeners = t.listeners → (t'.notify event).Hears l := by
    intro t' event hsame
    refine notify_hears ?_ ho event
    rw [Hears, hsame]
    exact h
  cases a with
  | present x => exact htell _ _ rfl
  | refresh e =>
    simp only [act, refresh]
    split
    · exact htell _ _ rfl
    · exact h
  | dismiss id =>
    simp only [act, dismiss]
    split
    · exact htell _ _ rfl
    · exact h
  | commit e =>
    simp only [act, commit]
    split
    · exact htell _ _ rfl
    · exact h
  | clear =>
    simp only [act, clear]
    split
    · exact htell _ _ rfl
    · exact h
  | subscribe x =>
    have hkey : x.key ≠ l.key := ha
    rw [Hears, act, subscribe, List.filter_append, h, List.filter_cons_of_neg (by simpa using hkey)]
    rfl
  | unsubscribe key => exact (filter_dropListener ha _).trans h
  | refuse fault => exact h

/-- Only a change of the history is told as one. -/
lemma told_act_of_silent (t : Tracker) (ha : a.change? = none) (key : Nat) :
    (t.act a).told key = t.told key := by
  cases a with
  | commit e => cases ha
  | clear => cases ha
  | present x => exact told_notify_toastsChanged _ _
  | refresh e =>
    simp only [act, refresh]
    split
    · exact told_notify_toastsChanged _ _
    · rfl
  | dismiss id =>
    simp only [act, dismiss]
    split
    · exact told_notify_toastsChanged _ _
    · rfl
  | _ => rfl

/-- A tracker has told its listeners of a change once, after the change has been made. -/
structure Tells (t t' : Tracker) (key : Nat) (entries : List HistoryEntry) : Prop where
  after : ∃ changed : Tracker, changed.history.entries = entries ∧
    changed.told key = t.told key ∧ t' = changed.notify .historyChanged
  once : t'.told key = t.told key + 1

lemma tells_of_notify (h : t.Hears l) (history : History) {entries : List HistoryEntry}
    (he : history.entries = entries) {t' : Tracker}
    (ht' : t' = ({ t with history } : Tracker).notify .historyChanged) :
    t.Tells t' l.key entries := by
  refine ⟨⟨{ t with history }, he, rfl, ht'⟩, ?_⟩
  have hsame : ({ t with history } : Tracker).Hears l := h
  rw [ht', told_notify_historyChanged hsame]
  rfl

lemma tells_commit (h : t.Hears l) (hq : t.history.Quiet) {e : HistoryEntry}
    (he : e.kind.IsKnown) : t.Tells (t.act (.commit e)) l.key (t.history.record e) := by
  obtain ⟨storage, hpush, -⟩ := hq.push he
  refine tells_of_notify h { t.history with entries := t.history.record e, storage } rfl ?_
  simp only [act, commit, hpush]

lemma tells_clear (h : t.Hears l) (hq : t.history.Quiet) : t.Tells (t.act .clear) l.key [] := by
  obtain ⟨storage, hclear, -⟩ := hq.clear
  refine tells_of_notify h { t.history with entries := [], storage } rfl ?_
  simp only [act, clear, hclear]

lemma Tells.of_told {t₁ t' : Tracker} {key : Nat} {entries : List HistoryEntry}
    (h : t₁.Tells t' key entries) (htold : t₁.told key = t.told key) : t.Tells t' key entries := by
  obtain ⟨changed, hentries, hbefore, hnotify⟩ := h.after
  exact ⟨⟨changed, hentries, hbefore.trans htold, hnotify⟩, htold ▸ h.once⟩

lemma acts_of_silent {as : List TrackerAct} (h : t.Hears l) (ho : l.once = false)
    (has : ∀ a ∈ as, a.Spares l.key ∧ a.change? = none) :
    (t.acts as).Hears l ∧ (t.acts as).told l.key = t.told l.key := by
  induction as generalizing t with
  | nil => exact ⟨h, rfl⟩
  | cons a r ih =>
    obtain ⟨hspares, hsilent⟩ := has a (by simp)
    obtain ⟨hears, htold⟩ := ih (hears_act h ho hspares) fun b hb => has b (by simp [hb])
    exact ⟨hears, htold.trans (told_act_of_silent t hsilent _)⟩

end Tracker

/-! ### Turns -/

/-- A turn shows some entries, and records the last one exactly if it ends the call. -/
def Turn.Closes (turn : Turn) : Prop :=
  ∃ shown : List HistoryEntry, turn.acts = shown.map .refresh
    ++ (if turn.call.isEnded then [.commit turn.call.entry] else [])

namespace Call

variable {c : Call} {h : History} {links : ExplorerLinks}

lemma closes_moveTurn (he : c.isEnded = false) (phase : TxPhase) : (c.moveTurn phase).Closes := by
  have hgoes : (c.moveTurn phase).call.isEnded = false := (moved_isEnded c phase).trans he
  by_cases hback : c.isEnded ∨ phase < c.phase
  · refine ⟨[], ?_⟩
    rw [hgoes, moveTurn, if_pos hback]
    rfl
  · refine ⟨[(c.moved phase).entry], ?_⟩
    rw [hgoes, moveTurn, if_neg hback]
    rfl

lemma closes_failTurn (reason : String) (outcome : CallOutcome) :
    (c.failTurn h reason outcome).Closes := ⟨[(c.failed reason outcome).entry], rfl⟩

lemma closes_stay (he : c.isEnded = false) : Turn.Closes ⟨c, []⟩ := ⟨[], by simp [he]⟩

lemma closes_leaveTurn (he : c.isEnded = false) : c.leaveTurn.Closes := by
  unfold leaveTurn
  split
  · exact closes_moveTurn he .submitted
  · exact closes_stay he

lemma closes_submitTurn {kind : TxKind} (hk : c.entry.kind = .known kind) (he : c.isEnded = false)
    (hash : String) : (c.submitTurn h links hash).Closes := by
  obtain ⟨shown, hleft⟩ := closes_leaveTurn (c := c.hashed hash) he
  have hgoes : (c.hashed hash).leaveTurn.call.isEnded = false :=
    (c.hashed hash).leaveTurn_isEnded.trans he
  have hkind : (c.hashed hash).leaveTurn.call.entry.kind = .known kind := by
    rw [leaveTurn_call, leaveSigning_kind]
    exact hk
  rw [hgoes] at hleft
  refine ⟨shown ++ [((c.hashed hash).leaveTurn.call.linked hash (links.link kind hash)).entry], ?_⟩
  simp only [submitTurn, hkind, ExplorerLinks.recordedLink, hleft]
  simp [linked, isEnded]

lemma closes_receiveTurn {result : WorkResult} (hk : c.entry.kind.IsKnown)
    (hn : result.KindIsText) (he : c.isEnded = false) : (c.receiveTurn h links result).Closes := by
  unfold receiveTurn
  rcases hx : result.extract c.entry.kind with fault | ⟨v, kind⟩
  · exact closes_failTurn _ _
  · obtain ⟨kind, rfl⟩ := extract_isKnown hn hk hx
    cases v with
    | text s =>
      dsimp only
      split
      · exact closes_failTurn _ _
      · exact closes_submitTurn (c := c.ofKind (.known kind)) rfl he s
    | _ => exact closes_failTurn _ _

lemma closes_succeedTurn (hq : h.Quiet) (hk : c.entry.kind.IsKnown) (he : c.isEnded = false)
    (hash : String) : (c.succeedTurn h hash).Closes := by
  obtain ⟨storage, hpush, -⟩ := hq.push (e := (c.confirmed hash).entry) (by rwa [confirmed_kind])
  obtain ⟨shown, hmove⟩ := closes_moveTurn he .confirmed
  have hgoes : (c.moveTurn .confirmed).call.isEnded = false := (moved_isEnded c .confirmed).trans he
  rw [hgoes] at hmove
  refine ⟨shown ++ [(c.confirmed hash).entry], ?_⟩
  simp only [succeedTurn, hpush, hmove]
  simp [recordActs, confirmed, isEnded]

/-- A turn of a call that has not ended, on a quiet history. -/
lemma closes_turn (hq : h.Quiet) (hk : c.entry.kind.IsKnown) {s : CallStep} (hn : s.KindIsText)
    (he : c.isEnded = false) : (c.turn h links s).Closes := by
  refine turn_cases (closes_stay he) (closes_moveTurn he) (fun _ _ => closes_failTurn _ _)
    (fun result hs => ?_) (closes_succeedTurn hq hk he)
  subst hs
  exact closes_receiveTurn hk hn he

end Call

/-! ### Steps -/

namespace TrackerStep

/-- A step that neither starts nor ends a subscription of some code. -/
def Spares (key : Nat) : TrackerStep → Prop
  | .subscribe l => l.key ≠ key
  | .unsubscribe key' => key' ≠ key
  | _ => True

/-- A step that is for a change of the history itself. -/
def isChange : TrackerStep → Bool
  | .append _ | .clear => true
  | _ => false

end TrackerStep

namespace TrackerRun

/-- A step tells some code once of the change of the history that it is for, after the change has
been made, or of none if there is none. -/
def Announces (r : TrackerRun) (s : TrackerStep) (key : Nat) : Prop :=
  match r.event? s with
  | some event => r.tracker.Tells (r.step s).tracker key
      (event.change.apply r.tracker.history.maxItems r.tracker.history.entries)
  | none => (r.step s).tracker.told key = r.tracker.told key

/-- How many calls have ended. -/
def ended (r : TrackerRun) : Nat := r.calls.countP (·.isEnded)

variable {r : TrackerRun} {s : TrackerStep} {l : Listener}

lemma announces_of_silent (he : r.event? s = none) (h : r.tracker.Hears l) (ho : l.once = false)
    (has : ∀ a ∈ r.actsOf s, a.Spares l.key ∧ a.change? = none) :
    r.Announces s l.key ∧ (r.step s).tracker.Hears l := by
  obtain ⟨hears, htold⟩ := Tracker.acts_of_silent h ho has
  rw [Announces, he, step_tracker]
  exact ⟨htold, hears⟩

lemma silent_refreshes (shown : List HistoryEntry) (key : Nat) :
    ∀ a ∈ shown.map TrackerAct.refresh, a.Spares key ∧ a.change? = none := by
  intro a ha
  obtain ⟨e, -, rfl⟩ := List.mem_map.1 ha
  exact ⟨trivial, rfl⟩

lemma acts_refreshes_history (t : Tracker) (shown : List HistoryEntry) :
    (t.acts (shown.map TrackerAct.refresh)).history = t.history := by
  induction shown generalizing t with
  | nil => rfl
  | cons e r ih =>
    rw [List.map_cons, Tracker.acts_cons, ih]
    exact t.refresh_history e

lemma turnOf_call (hq : r.tracker.history.Quiet) {c : Call} (hk : c.entry.kind.IsKnown)
    {own : CallStep} (hn : own.KindIsText) :
    (r.turnOf c own).call = c.next r.tracker.links own := by
  rw [← (Call.step_of_quiet hq hk hn).1, Call.step_eq_turn]
  rfl

/-- A step of a call that has not ended. -/
lemma announces_call (hq : r.tracker.history.Quiet) (hs : s.IsTame) (h : r.tracker.Hears l)
    (ho : l.once = false) {i : Nat} {own : CallStep} {c : Call} (ht : s.target = some (i, own))
    (hi : r.calls[i]? = some c) (hk : c.entry.kind.IsKnown) (he : c.isEnded = false) :
    r.Announces s l.key ∧ (r.step s).tracker.Hears l := by
  obtain ⟨-, hacts⟩ := step_of_call ht hi
  have hcloses : (r.turnOf c own).Closes := Call.closes_turn hq hk (hs.kindIsText ht) he
  have hevent := callEvent?_eq ht hi (getElem?_step_of_call ht hi)
  rw [← event?_of_target ht] at hevent
  obtain ⟨shown, hshown⟩ := hcloses
  cases hend : (r.turnOf c own).call.isEnded with
  | false =>
    rw [hend] at hshown hevent
    refine announces_of_silent (by simpa using hevent) h ho ?_
    rw [hacts, hshown]
    simpa using silent_refreshes shown l.key
  | true =>
    rw [hend, if_pos rfl] at hshown
    rw [he, hend] at hevent
    obtain ⟨hears, htold⟩ := Tracker.acts_of_silent h ho (silent_refreshes shown l.key)
    have hsame := acts_refreshes_history r.tracker shown
    have hknown : (r.turnOf c own).call.entry.kind.IsKnown := by
      rw [turnOf_call hq hk (hs.kindIsText ht)]
      exact Call.next_isKnown hk _ (hs.kindIsText ht)
    have htells := Tracker.tells_commit hears (hsame ▸ hq) hknown
    rw [Announces, hevent, if_pos ⟨rfl, rfl⟩, step_tracker, hacts, hshown, Tracker.acts_append]
    rw [hsame] at htells
    exact ⟨htells.of_told htold, Tracker.hears_act (a := .commit _) hears ho trivial⟩

/-- A step that is no call's. -/
lemma announces_other (hq : r.tracker.history.Quiet) (h : r.tracker.Hears l) (ho : l.once = false)
    (hl : s.Spares l.key) (ht : s.target = none) :
    r.Announces s l.key ∧ (r.step s).tracker.Hears l := by
  cases s with
  | append draft =>
    have hd : (draft.entry r.tracker.links r.nextId r.timestamp).kind.IsKnown := ⟨draft.kind, rfl⟩
    exact ⟨Tracker.tells_commit h hq hd, Tracker.hears_act (a := .commit _) h ho trivial⟩
  | clear => exact ⟨Tracker.tells_clear h hq, Tracker.hears_act (a := .clear) h ho trivial⟩
  | setPhase call phase => cases ht
  | finishWork call ending => cases ht
  | finishConfirmation call ending => cases ht
  | subscribe listener => exact announces_of_silent rfl h ho (by simpa [actsOf] using ⟨hl, rfl⟩)
  | unsubscribe key => exact announces_of_silent rfl h ho (by simpa [actsOf] using ⟨hl, rfl⟩)
  | setClock now => exact announces_of_silent rfl h ho (by simp [actsOf])
  | start info => exact announces_of_silent rfl h ho (by simpa [actsOf] using ⟨trivial, rfl⟩)
  | dismiss id => exact announces_of_silent rfl h ho (by simpa [actsOf] using ⟨trivial, rfl⟩)
  | refuseWrites fault =>
    exact announces_of_silent rfl h ho (by simpa [actsOf] using ⟨trivial, rfl⟩)

/-- Every step announces what it is for, and ends no subscription but its own. -/
theorem announces_step (hq : r.tracker.history.Quiet) (hk : ∀ c ∈ r.calls, c.entry.kind.IsKnown)
    (hs : s.IsTame) (h : r.tracker.Hears l) (ho : l.once = false) (hl : s.Spares l.key) :
    r.Announces s l.key ∧ (r.step s).tracker.Hears l := by
  cases ht : s.target with
  | none => exact announces_other hq h ho hl ht
  | some p =>
    obtain ⟨i, own⟩ := p
    rcases step_call_cases (r := r) ht with ⟨-, hacts, hevent⟩ | ⟨c, hi, he⟩
    · exact announces_of_silent hevent h ho (by simp [hacts])
    · exact announces_call hq hs h ho ht hi (hk c (List.mem_of_getElem? hi)) he

/-- How often code is told in a step. -/
lemma told_of_announces {key : Nat} (h : r.Announces s key) :
    (r.step s).tracker.told key = r.tracker.told key + (r.event? s).toList.length := by
  unfold Announces at h
  cases he : r.event? s with
  | none => simpa [he] using h
  | some event =>
    rw [he] at h
    exact h.once

/-- A step is for a change if a call ends by it, or if it changes the history itself. -/
lemma ended_step (r : TrackerRun) (s : TrackerStep) :
    r.ended + (r.event? s).toList.length
      = (r.step s).ended + (if s.isChange then 1 else 0) := by
  cases ht : s.target with
  | none =>
    rw [ended, ended, calls_step_of_noTarget ht, List.countP_append]
    cases s with
    | setPhase call phase => cases ht
    | finishWork call ending => cases ht
    | finishConfirmation call ending => cases ht
    | _ => rfl
  | some p =>
    obtain ⟨i, own⟩ := p
    have hno : s.isChange = false := by
      cases s with
      | append draft => cases ht
      | clear => cases ht
      | _ => rfl
    rw [hno]
    rcases step_call_cases (r := r) ht with ⟨hstep, -, hevent⟩ | ⟨c, hi, he⟩
    · rw [hstep, hevent]
      rfl
    · obtain ⟨hstep, -⟩ := step_of_call ht hi
      obtain ⟨hlt, hget⟩ := List.getElem?_eq_some_iff.1 hi
      rw [event?_of_target ht, callEvent?_eq ht hi (getElem?_step_of_call ht hi), hstep, ended,
        ended, List.countP_set hlt, hget, he]
      cases (r.turnOf c own).call.isEnded <;> rfl

/-! ### Runs -/

/-- **Listeners are told of every change once.** Over a run, code that stays subscribed is told of
as many changes of the history as calls end and drafts and drops are made, of each in its own step
and after it has been made. -/
theorem announces_steps {ss : List TrackerStep} (hq : r.tracker.history.Quiet)
    (hk : ∀ c ∈ r.calls, c.entry.kind.IsKnown) (hss : ∀ s ∈ ss, s.IsTame)
    (h : r.tracker.Hears l) (ho : l.once = false) (hl : ∀ s ∈ ss, s.Spares l.key) :
    (r.steps ss).tracker.told l.key + r.ended
        = r.tracker.told l.key + (r.steps ss).ended + ss.countP (·.isChange) ∧
      ∀ before s after, ss = before ++ s :: after → (r.steps before).Announces s l.key := by
  induction ss generalizing r with
  | nil => exact ⟨rfl, by simp⟩
  | cons s ss ih =>
    have hs := hss s (by simp)
    obtain ⟨hfirst, hears⟩ := announces_step hq hk hs h ho (hl s (by simp))
    obtain ⟨hcount, hall⟩ := ih (holds_step hq hk hs).quiet (isKnown_step hq hk hs)
      (fun x hx => hss x (by simp [hx])) hears fun x hx => hl x (by simp [hx])
    have htold := told_of_announces hfirst
    have hended := ended_step r s
    refine ⟨?_, ?_⟩
    · rw [List.countP_cons]
      change ((r.step s).steps ss).tracker.told l.key + r.ended
        = _ + ((r.step s).steps ss).ended + _
      omega
    · intro before x after hx
      cases before with
      | nil =>
        obtain ⟨rfl, -⟩ := List.cons.inj hx
        exact hfirst
      | cons y before =>
        obtain ⟨rfl, hrest⟩ := List.cons.inj hx
        exact hall before x after hrest

end TrackerRun

end StellarWallet
