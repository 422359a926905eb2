import StellarWallet.Proofs.Tracker.Waiting

/-!
What toasts and listeners have no part in.

Two runs are alike if all that matters to calls, to the history and to the ledgers is the same in
both. Every step keeps runs alike, and a step that is only about toasts or listeners leaves a run
like itself; so runs that differ in nothing else come to the same.
-/

namespace StellarWallet

/-- What an act makes of the history. -/
def TrackerAct.onHistory (h : History) : TrackerAct → History
  | .commit e => (h.push e).2
  | .clear => h.clear.2
  | .refuse fault => h.refuse fault
  | _ => h

namespace Tracker

lemma act_history (t : Tracker) (a : TrackerAct) : (t.act a).history = a.onHistory t.history := by
  cases a with
  | commit e => exact (t.commit_eq e).2
  | clear => exact t.clear_history
  | present x => exact t.present_history x
  | refresh e => exact t.refresh_history e
  | dismiss id => exact t.dismiss_history id
  | _ => rfl

lemma act_links (t : Tracker) (a : TrackerAct) : (t.act a).links = t.links := by
  cases a with
  | commit e => simp only [act, commit]; split <;> simp
  | clear => simp only [act, clear]; split <;> simp
  | present x => exact t.present_links x
  | refresh e => exact t.refresh_links e
  | dismiss id => exact t.dismiss_links id
  | _ => rfl

lemma acts_history (t : Tracker) (as : List TrackerAct) :
    (t.acts as).history = as.foldl TrackerAct.onHistory t.history := by
  induction as generalizing t with
  | nil => rfl
  | cons a r ih => rw [acts_cons, ih, act_history, List.foldl_cons]

lemma acts_links (t : Tracker) (as : List TrackerAct) : (t.acts as).links = t.links := by
  induction as generalizing t with
  | nil => rfl
  | cons a r ih => rw [acts_cons, ih, act_links]

end Tracker

/-- A step that is only about toasts or listeners. -/
def TrackerStep.isWatching : TrackerStep → Bool
  | .dismiss _ | .subscribe _ | .unsubscribe _ => true
  | _ => false

namespace TrackerRun

/-- The runs differ at most in the toasts, in how many there may be, in the listeners, and in what
these were told. -/
structure Alike (r r' : TrackerRun) : Prop where
  history : r.tracker.history = r'.tracker.history
  links : r.tracker.links = r'.tracker.links
  calls : r.calls = r'.calls
  now : r.now = r'.now
  drawn : r.drawn = r'.drawn

/-- What a step hands back to its caller at once, if it is to record a draft. -/
def reply? (r : TrackerRun) : TrackerStep → Option (Except Fault HistoryEntry)
  | .append draft => some (r.append draft).1
  | _ => none

variable {r r' r'' : TrackerRun} {s : TrackerStep}

namespace Alike

lemma refl (r : TrackerRun) : r.Alike r := ⟨rfl, rfl, rfl, rfl, rfl⟩

lemma symm (h : r.Alike r') : r'.Alike r :=
  ⟨h.history.symm, h.links.symm, h.calls.symm, h.now.symm, h.drawn.symm⟩

lemma trans (h : r.Alike r') (h' : r'.Alike r'') : r.Alike r'' :=
  ⟨h.history.trans h'.history, h.links.trans h'.links, h.calls.trans h'.calls,
    h.now.trans h'.now, h.drawn.trans h'.drawn⟩

lemma nextId (h : r.Alike r') : r.nextId = r'.nextId := by
  rw [TrackerRun.nextId, h.now, h.drawn, TrackerRun.nextId]

lemma timestamp (h : r.Alike r') : r.timestamp = r'.timestamp := by
  rw [TrackerRun.timestamp, h.now, TrackerRun.timestamp]

lemma turnOf (h : r.Alike r') (c : Call) (own : CallStep) : r.turnOf c own = r'.turnOf c own := by
  rw [TrackerRun.turnOf, h.history, h.links, TrackerRun.turnOf]

/-- Alike runs do the same to their trackers. -/
lemma actsOf (h : r.Alike r') (s : TrackerStep) : r.actsOf s = r'.actsOf s := by
  cases ht : s.target with
  | some p =>
    rw [actsOf_of_target ht, actsOf_of_target ht, h.calls]
    simp only [h.turnOf]
  | none =>
    cases s with
    | start info => simp only [TrackerRun.actsOf, h.nextId, h.timestamp]
    | append draft => simp only [TrackerRun.actsOf, h.links, h.nextId, h.timestamp]
    | setPhase call phase => cases ht
    | finishWork call ending => cases ht
    | finishConfirmation call ending => cases ht
    | _ => rfl

lemma calls_step (h : r.Alike r') (s : TrackerStep) : (r.step s).calls = (r'.step s).calls := by
  cases ht : s.target with
  | some p =>
    obtain ⟨i, own⟩ := p
    cases hi : r.calls[i]? with
    | some c =>
      rw [(step_of_call ht hi).1, (step_of_call ht (h.calls ▸ hi)).1, h.turnOf, h.calls]
    | none => rw [(step_missing ht hi).1, (step_missing ht (h.calls ▸ hi)).1, h.calls]
  | none =>
    rw [calls_step_of_noTarget ht, calls_step_of_noTarget ht, h.calls]
    cases s with
    | start info => rw [h.nextId, h.timestamp]
    | _ => rfl

end Alike

/-- A step of a call takes no time and draws nothing. -/
lemma onCall_now (r : TrackerRun) (i : Nat) (f : Call → Tracker → Call × Tracker) :
    (r.onCall i f).now = r.now ∧ (r.onCall i f).drawn = r.drawn := by
  unfold onCall
  split
  · exact ⟨rfl, rfl⟩
  · exact ⟨rfl, rfl⟩

lemma Alike.now_step (h : r.Alike r') (s : TrackerStep) :
    (r.step s).now = (r'.step s).now ∧ (r.step s).drawn = (r'.step s).drawn := by
  cases ht : s.target with
  | some p =>
    obtain ⟨i, own⟩ := p
    rw [step_of_target ht, step_of_target ht]
    obtain ⟨hn, hd⟩ := onCall_now r i fun c t => c.step t own
    obtain ⟨hn', hd'⟩ := onCall_now r' i fun c t => c.step t own
    exact ⟨hn.trans (h.now.trans hn'.symm), hd.trans (h.drawn.trans hd'.symm)⟩
  | none =>
    cases s with
    | setPhase call phase => cases ht
    | finishWork call ending => cases ht
    | finishConfirmation call ending => cases ht
    | start info => exact ⟨h.now, congrArg (· + 1) h.drawn⟩
    | append draft => exact ⟨h.now, congrArg (· + 1) h.drawn⟩
    | setClock now => exact ⟨rfl, h.drawn⟩
    | _ => exact ⟨h.now, h.drawn⟩

/-- Every step keeps runs alike. -/
theorem Alike.step (h : r.Alike r') (s : TrackerStep) : (r.step s).Alike (r'.step s) where
  history := by
    rw [step_tracker, step_tracker, Tracker.acts_history, Tracker.acts_history, h.actsOf, h.history]
  links := by
    rw [step_tracker, step_tracker, Tracker.acts_links, Tracker.acts_links, h.links]
  calls := h.calls_step s
  now := (h.now_step s).1
  drawn := (h.now_step s).2

lemma Alike.steps (h : r.Alike r') (ss : List TrackerStep) : (r.steps ss).Alike (r'.steps ss) := by
  induction ss generalizing r r' with
  | nil => exact h
  | cons s ss ih => exact ih (h.step s)

/-- Alike runs hand back the same. -/
lemma Alike.reply? (h : r.Alike r') (s : TrackerStep) : r.reply? s = r'.reply? s := by
  cases s with
  | append draft =>
    have hentry : draft.entry r.tracker.links r.nextId r.timestamp
        = draft.entry r'.tracker.links r'.nextId r'.timestamp := by
      rw [h.links, h.nextId, h.timestamp]
    simp only [TrackerRun.reply?, append, Tracker.append, hentry, (Tracker.commit_eq _ _).1,
      h.history]
  | _ => rfl

/-- A step that is only about toasts or listeners leaves a run like itself. -/
theorem alike_step_of_isWatching (hs : s.isWatching = true) : r.Alike (r.step s) := by
  cases s with
  | dismiss id =>
    exact ⟨(r.tracker.dismiss_history id).symm, (r.tracker.dismiss_links id).symm, rfl, rfl, rfl⟩
  | subscribe listener => exact ⟨rfl, rfl, rfl, rfl, rfl⟩
  | unsubscribe key => exact ⟨rfl, rfl, rfl, rfl, rfl⟩
  | _ => cases hs

end TrackerRun

/-- A step that is only about toasts or listeners. -/
def LiveStep.isWatching : LiveStep → Bool
  | .track step => step.isWatching
  | .ask _ => false

namespace LiveRun

/-- What a step hands back to its caller at once, if it is to record a draft. -/
def reply? (r : LiveRun) : LiveStep → Option (Except Fault HistoryEntry)
  | .track step => r.run.reply? step
  | .ask _ => none

/-- What some steps hand back at once, the first first. -/
def replies (s : WalletSettings) (host : Host) (r : LiveRun) :
    List LiveStep → List (Except Fault HistoryEntry)
  | [] => []
  | x :: xs => (r.reply? x).toList ++ (r.step s host x).replies s host xs

/-- The runs are alike, and so is all that they have asked and how long they have slept. -/
structure Alike (r r' : LiveRun) : Prop where
  run : r.run.Alike r'.run
  journal : r.journal = r'.journal
  asked : r.asked = r'.asked

variable (s : WalletSettings) (host : Host) {r r' r'' : LiveRun} {x : LiveStep}

lemma replies_cons (r : LiveRun) (x : LiveStep) (xs : List LiveStep) :
    r.replies s host (x :: xs)
      = (r.reply? x).toList ++ (r.step s host x).replies s host xs := rfl

namespace Alike

lemma refl (r : LiveRun) : r.Alike r := ⟨.refl _, rfl, rfl⟩

lemma symm (h : r.Alike r') : r'.Alike r := ⟨h.run.symm, h.journal.symm, h.asked.symm⟩

lemma trans (h : r.Alike r') (h' : r'.Alike r'') : r.Alike r'' :=
  ⟨h.run.trans h'.run, h.journal.trans h'.journal, h.asked.trans h'.asked⟩

/-- Alike runs get the same answers. -/
lemma answer? (h : r.Alike r') (i : Nat) : r.answer? s host i = r'.answer? s host i := by
  simp only [LiveRun.answer?, h.run.calls, h.journal, h.asked]

lemma move? (h : r.Alike r') (x : LiveStep) : r.move? s host x = r'.move? s host x := by
  cases x with
  | track step => rfl
  | ask i => simp only [LiveRun.move?, h.answer? s host i]

theorem step (h : r.Alike r') (x : LiveStep) : (r.step s host x).Alike (r'.step s host x) := by
  refine ⟨?_, ?_, ?_⟩
  · simp only [LiveRun.step, h.move? s host x]
    exact h.run.steps _
  · cases x with
    | track step => exact h.journal
    | ask i => simp only [LiveRun.step, h.answer? s host i, h.journal]
  · cases x with
    | track step => exact h.asked
    | ask i => simp only [LiveRun.step, h.asked]

/-- Alike runs stay alike over the same steps, and hand back the same. -/
lemma steps (h : r.Alike r') (xs : List LiveStep) :
    (r.steps s host xs).Alike (r'.steps s host xs) ∧
      r.replies s host xs = r'.replies s host xs := by
  induction xs generalizing r r' with
  | nil => exact ⟨h, rfl⟩
  | cons x xs ih =>
    obtain ⟨hend, hreplies⟩ := ih (h.step s host x)
    refine ⟨hend, ?_⟩
    have hreply : r.reply? x = r'.reply? x := by
      cases x with
      | track step => exact h.run.reply? step
      | ask i => rfl
    rw [replies_cons, replies_cons, hreplies, hreply]

end Alike

/-- A step that is only about toasts or listeners leaves a run like itself. -/
lemma alike_step_of_isWatching (hx : x.isWatching = true) :
    r.Alike (r.step s host x) ∧ ∀ xs, r.replies s host (x :: xs)
      = (r.step s host x).replies s host xs := by
  cases x with
  | track step =>
    refine ⟨⟨TrackerRun.alike_step_of_isWatching hx, rfl, rfl⟩, fun xs => ?_⟩
    cases step with
    | append draft => cases hx
    | _ => rfl
  | ask i => cases hx

/-- A run is like the one in which nothing is only about toasts or listeners. -/
lemma alike_filter (r : LiveRun) (xs : List LiveStep) :
    (r.steps s host xs).Alike (r.steps s host (xs.filter (!·.isWatching))) ∧
      r.replies s host xs = r.replies s host (xs.filter (!·.isWatching)) := by
  induction xs generalizing r with
  | nil => exact ⟨.refl _, rfl⟩
  | cons x xs ih =>
    obtain ⟨hend, hreplies⟩ := ih (r.step s host x)
    cases hx : x.isWatching with
    | true =>
      obtain ⟨hstep, hskip⟩ := alike_step_of_isWatching s host (r := r) hx
      obtain ⟨hsame, hreplies'⟩ := hstep.steps s host (xs.filter (!·.isWatching))
      rw [List.filter_cons_of_neg (by simp [hx]), hskip, hreplies, hreplies']
      exact ⟨hend.trans hsame.symm, rfl⟩
    | false =>
      rw [List.filter_cons_of_pos (by simp [hx]), replies_cons, replies_cons, hreplies]
      exact ⟨hend, rfl⟩

/-- Runs that start alike and differ in nothing but what is only about toasts or listeners come to
the same. -/
lemma alike_of_filter_eq (h : r.Alike r') {xs xs' : List LiveStep}
    (hxs : xs.filter (!·.isWatching) = xs'.filter (!·.isWatching)) :
    (r.steps s host xs).Alike (r'.steps s host xs') ∧
      r.replies s host xs = r'.replies s host xs' := by
  obtain ⟨hleft, hreplies⟩ := alike_filter s host r xs
  obtain ⟨hright, hreplies'⟩ := alike_filter s host r' xs'
  obtain ⟨hsame, hreplies''⟩ := h.steps s host (xs.filter (!·.isWatching))
  rw [hxs] at hleft hreplies hsame hreplies''
  exact ⟨hleft.trans (hsame.trans hright.symm),
    hreplies.trans (hreplies''.trans hreplies'.symm)⟩

end LiveRun

end StellarWallet
