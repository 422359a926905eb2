import StellarWallet.Proofs.History.Recording
import StellarWallet.Tracker.Run

/-!
What each operation of a tracker leaves alone.

Telling listeners and showing toasts touch neither history nor links; on a quiet history, recording
adds one entry in front and clearing drops all.
-/

namespace StellarWallet.Tracker

variable {α : Type} {t : Tracker}

/-- Telling listeners keeps what telling one of them keeps. -/
lemma notify_keeps (f : Tracker → α) (event : TrackerEvent)
    (hf : ∀ t l, f (deliver event t l) = f t) (t : Tracker) : f (t.notify event) = f t := by
  unfold notify
  induction t.listeners generalizing t with
  | nil => rfl
  | cons l r ih => rw [List.foldl_cons, ih, hf]

/-- A listener that fails leaves a complaint behind and changes nothing else. -/
lemma deliver_eq (event : TrackerEvent) (t : Tracker) (l : Listener) :
    deliver event t l = { t with
      delivered := t.delivered ++ [(l.key, event)]
      listeners := if l.once then dropListener l.key t.listeners else t.listeners
      complaints := t.complaints ++
        (l.fault? t.delivered event).toList.map (listenerNote event) } := by
  rw [deliver, call]
  cases l.fault? t.delivered event <;> cases l.once <;> simp [unsubscribe]

lemma deliver_history (event : TrackerEvent) (t : Tracker) (l : Listener) :
    (deliver event t l).history = t.history := by
  rw [deliver_eq]

lemma deliver_links (event : TrackerEvent) (t : Tracker) (l : Listener) :
    (deliver event t l).links = t.links := by
  rw [deliver_eq]

lemma deliver_toasts (event : TrackerEvent) (t : Tracker) (l : Listener) :
    (deliver event t l).toasts = t.toasts := by
  rw [deliver_eq]

@[simp] lemma notify_history (t : Tracker) (event : TrackerEvent) :
    (t.notify event).history = t.history := notify_keeps history event (deliver_history event) t

@[simp] lemma notify_links (t : Tracker) (event : TrackerEvent) :
    (t.notify event).links = t.links := notify_keeps links event (deliver_links event) t

@[simp] lemma notify_toasts (t : Tracker) (event : TrackerEvent) :
    (t.notify event).toasts = t.toasts := notify_keeps toasts event (deliver_toasts event) t

@[simp] lemma refresh_history (t : Tracker) (e : HistoryEntry) :
    (t.refresh e).history = t.history := by
  unfold refresh
  split <;> simp

@[simp] lemma refresh_links (t : Tracker) (e : HistoryEntry) :
    (t.refresh e).links = t.links := by
  unfold refresh
  split <;> simp

@[simp] lemma present_history (t : Tracker) (x : Toast) : (t.present x).history = t.history := by
  simp [present]

@[simp] lemma present_links (t : Tracker) (x : Toast) : (t.present x).links = t.links := by
  simp [present]

@[simp] lemma dismiss_history (t : Tracker) (id : String) :
    (t.dismiss id).2.history = t.history := by
  unfold dismiss
  split <;> simp

@[simp] lemma dismiss_links (t : Tracker) (id : String) : (t.dismiss id).2.links = t.links := by
  unfold dismiss
  split <;> simp

/-- A commit is a push for the history, and answers as that does. -/
lemma commit_eq (t : Tracker) (e : HistoryEntry) :
    (t.commit e).1 = (t.history.push e).1 ∧ (t.commit e).2.history = (t.history.push e).2 := by
  unfold commit
  split
  · next h => exact ⟨by rw [h], by simp [h]⟩
  · next h => exact ⟨by rw [h], by rw [h]⟩

lemma clear_history (t : Tracker) : t.clear.2.history = t.history.clear.2 := by
  unfold clear
  split
  · next h => simp [h]
  · next h => rw [h]

/-- The history has become `entries`, and all else that matters to calls is as it was. -/
structure Holds (t t' : Tracker) (entries : List HistoryEntry) : Prop where
  entries : t'.history.entries = entries
  maxItems : t'.history.maxItems = t.history.maxItems
  links : t'.links = t.links
  quiet : t'.history.Quiet

lemma Holds.of_history {t' : Tracker} (hq : t.history.Quiet) (hh : t'.history = t.history)
    (hl : t'.links = t.links) : Holds t t' t.history.entries :=
  ⟨by rw [hh], by rw [hh], hl, by rwa [hh]⟩

lemma Holds.trans {t₁ t₂ : Tracker} {es₁ es₂ : List HistoryEntry} (h₁ : t.Holds t₁ es₁)
    (h₂ : t₁.Holds t₂ es₂) : t.Holds t₂ es₂ :=
  ⟨h₂.entries, h₂.maxItems.trans h₁.maxItems, h₂.links.trans h₁.links, h₂.quiet⟩

/-- While the list stays the same, so does what a record makes of it. -/
lemma Holds.record_eq {t' : Tracker} (h : t.Holds t' t.history.entries) (e : HistoryEntry) :
    t'.history.record e = t.history.record e := by
  rw [History.record, History.record, h.entries, h.maxItems]

lemma commit_of_quiet (hq : t.history.Quiet) {e : HistoryEntry} (he : e.kind.IsKnown) :
    (t.commit e).1 = .ok () ∧ Holds t (t.commit e).2 (t.history.record e) := by
  obtain ⟨storage, hp, hq'⟩ := hq.push he
  refine ⟨by simp only [commit, hp], ?_⟩
  simp only [commit, hp]
  exact ⟨by simp, by simp, by simp, by simpa using hq'⟩

lemma clear_of_quiet (hq : t.history.Quiet) : Holds t t.clear.2 [] := by
  obtain ⟨storage, hc, hq'⟩ := hq.clear
  simp only [clear, hc]
  exact ⟨by simp, by simp, by simp, by simpa using hq'⟩

end StellarWallet.Tracker
