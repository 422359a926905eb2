import Mathlib.Data.List.Chain
import Mathlib.Data.List.Nodup
import StellarWallet.Proofs.Tracker.Display

/-!
What acts do to the toasts on show.

A moment is what is on show between two acts. Proper moments show toasts of transactions that have
been started, the newest first and not more than there may be; a later moment shows what was on show
before in phases that do not go back, and shows nothing again that was gone. Acts that only take
toasts away, and acts that only show one transaction that has not ended, lead from one such moment
to the next.
-/

namespace StellarWallet

lemma map_atMost {α β : Type} (f : α → β) (limit : Int) (items : List α) :
    (atMost limit items).map f = atMost limit (items.map f) := by
  unfold atMost
  split <;> simp [List.map_take]

namespace Toast

@[simp] lemma update_title (e : HistoryEntry) (x : Toast) : (x.update e).title = x.title := by
  unfold update
  split <;> rfl

@[simp] lemma update_id (e : HistoryEntry) (x : Toast) :
    (x.update e).entry.id = x.entry.id := by
  unfold update
  split
  · next h => exact h.symm
  · rfl

lemma update_of_ne {e : HistoryEntry} {x : Toast} (h : x.entry.id ≠ e.id) : x.update e = x :=
  if_neg h

lemma update_entry_of_eq {e : HistoryEntry} {x : Toast} (h : x.entry.id = e.id) :
    (x.update e).entry = e := by
  rw [update, if_pos h]

/-- A toast may go on as another: it is the same transaction, and its phase has not gone back. -/
structure Becomes (x y : Toast) : Prop where
  id : y.entry.id = x.entry.id
  title : y.title = x.title
  phase : TxPhase.Reaches x.entry.phase y.entry.phase

lemma Becomes.refl (x : Toast) : x.Becomes x := ⟨rfl, rfl, TxPhase.Reaches.refl _⟩

lemma Becomes.trans {x y z : Toast} (h : x.Becomes y) (h' : y.Becomes z) : x.Becomes z :=
  ⟨h'.id.trans h.id, h'.title.trans h.title, h.phase.trans h'.phase⟩

end Toast

namespace Tracker

/-- The identifiers of the toasts on show. -/
def shownIds (t : Tracker) : List String := t.toasts.map (·.entry.id)

lemma deliver_maxToasts (event : TrackerEvent) (t : Tracker) (l : Listener) :
    (deliver event t l).maxToasts = t.maxToasts := by
  rw [deliver_eq]

@[simp] lemma notify_maxToasts (t : Tracker) (event : TrackerEvent) :
    (t.notify event).maxToasts = t.maxToasts :=
  notify_keeps maxToasts event (deliver_maxToasts event) t

@[simp] lemma present_toasts (t : Tracker) (x : Toast) :
    (t.present x).toasts = atMost t.maxToasts (x :: t.toasts) := by
  simp [present]

@[simp] lemma refresh_toasts (t : Tracker) (e : HistoryEntry) :
    (t.refresh e).toasts = t.toasts.map (Toast.update e) := by
  unfold refresh
  split
  · simp
  · next h =>
    have hid : ∀ x ∈ t.toasts, Toast.update e x = x := by
      intro x hx
      refine Toast.update_of_ne fun he => h ?_
      exact List.any_eq_true.2 ⟨x, hx, decide_eq_true he⟩
    rw [List.map_congr_left hid, List.map_id']

@[simp] lemma dismiss_toasts (t : Tracker) (id : String) :
    (t.dismiss id).2.toasts = t.toasts.filter (·.entry.id ≠ id) := by
  unfold dismiss
  split
  · simp
  · next h =>
    refine (List.filter_eq_self.2 fun x hx => ?_).symm
    refine decide_eq_true fun he => h ?_
    exact List.any_eq_true.2 ⟨x, hx, decide_eq_true he⟩

@[simp] lemma commit_toasts (t : Tracker) (e : HistoryEntry) :
    (t.commit e).2.toasts = t.toasts := by
  unfold commit
  split <;> simp

@[simp] lemma clear_toasts (t : Tracker) : t.clear.2.toasts = t.toasts := by
  unfold clear
  split <;> simp

@[simp] lemma act_maxToasts (t : Tracker) (a : TrackerAct) :
    (t.act a).maxToasts = t.maxToasts := by
  cases a with
  | present x => simp [act, present]
  | refresh e => simp only [act, refresh]; split <;> simp
  | dismiss id => simp only [act, dismiss]; split <;> simp
  | commit e => simp only [act, commit]; split <;> simp
  | clear => simp only [act, clear]; split <;> simp
  | subscribe listener => rfl
  | unsubscribe key => rfl
  | refuse fault => rfl

@[simp] lemma acts_maxToasts (t : Tracker) (as : List TrackerAct) :
    (t.acts as).maxToasts = t.maxToasts := by
  induction as generalizing t with
  | nil => rfl
  | cons a r ih => rw [acts_cons, ih, act_maxToasts]

/-- The trackers that some acts lead through, one after each act. -/
def during (t : Tracker) : List TrackerAct → List Tracker
  | [] => []
  | a :: as => t.act a :: (t.act a).during as

end Tracker

/-- What is on show at a moment, with the transactions that have been started so far, the oldest
first, and those among them that had ended before the step that the moment is in. -/
structure Moment where
  started : List String
  finished : List String
  toasts : List Toast

namespace Moment

def shownIds (m : Moment) : List String := m.toasts.map (·.entry.id)

/-- Not too many toasts are on show, each of another transaction, the latest start first. -/
structure InOrder (m : Moment) (limit : Int) : Prop where
  length : (m.toasts.length : Int) ≤ limit
  distinct : m.shownIds.Nodup
  newestFirst : m.shownIds.Sublist m.started.reverse

/-- What comes after a moment: of what had been started by then, only what was on show then can be
on show, and if it had ended by then, only as it was. -/
structure Precedes (m m' : Moment) : Prop where
  started : m.started ⊆ m'.started
  finished : m.finished ⊆ m'.finished
  shown : ∀ y ∈ m'.toasts, y.entry.id ∈ m.started →
    ∃ x ∈ m.toasts, x.Becomes y ∧ (x.entry.id ∈ m.finished → y = x)

lemma Precedes.trans {m₁ m₂ m₃ : Moment} (h : m₁.Precedes m₂) (h' : m₂.Precedes m₃) :
    m₁.Precedes m₃ where
  started := List.Subset.trans h.started h'.started
  finished := List.Subset.trans h.finished h'.finished
  shown := by
    intro z hz hstarted
    obtain ⟨y, hy, hyz, hy'⟩ := h'.shown z hz (h.started hstarted)
    obtain ⟨x, hx, hxy, hx'⟩ := h.shown y hy (hyz.id ▸ hstarted)
    refine ⟨x, hx, hxy.trans hyz, fun hfinished => ?_⟩
    have hyx := hx' hfinished
    exact (hy' (hyx ▸ h.finished hfinished)).trans hyx

instance : Trans Precedes Precedes Precedes := ⟨Precedes.trans⟩

/-- Toasts may go, transactions may start and end. -/
lemma precedes_of_subset {m m' : Moment} (hs : m.started ⊆ m'.started)
    (hf : m.finished ⊆ m'.finished)
    (ht : ∀ x ∈ m'.toasts, x.entry.id ∈ m.started → x ∈ m.toasts) : m.Precedes m' :=
  ⟨hs, hf, fun y hy hstarted => ⟨y, ht y hy hstarted, Toast.Becomes.refl y, fun _ => rfl⟩⟩

end Moment

open TrackerAct Moment

section Acts

variable {t : Tracker} {as : List TrackerAct} {id : String} {e : HistoryEntry}
  {started finished finished' : List String}

/-- The moments that some acts lead through. -/
def momentsOf (started finished : List String) (t : Tracker) (as : List TrackerAct) :
    List Moment :=
  (t.during as).map fun t => ⟨started, finished, t.toasts⟩

lemma momentsOf_cons (t : Tracker) (a : TrackerAct) (as : List TrackerAct) :
    momentsOf started finished t (a :: as)
      = ⟨started, finished, (t.act a).toasts⟩ :: momentsOf started finished (t.act a) as := rfl

/-- Acts that only take toasts away. -/
lemma chain_of_sublists (h : ∀ a ∈ as, ∀ t : Tracker, (t.act a).toasts.Sublist t.toasts)
    (hf : finished ⊆ finished') :
    (⟨started, finished, t.toasts⟩ :: (momentsOf started finished t as
      ++ [⟨started, finished', (t.acts as).toasts⟩])).IsChain Precedes := by
  induction as generalizing t with
  | nil => exact .cons_cons (precedes_of_subset (fun _ h => h) hf fun _ h _ => h) (.singleton _)
  | cons a r ih =>
    have hsub := h a (by simp) t
    have hrest : ∀ a ∈ r, ∀ t : Tracker, (t.act a).toasts.Sublist t.toasts := fun a ha =>
      h a (by simp [ha])
    rw [momentsOf_cons]
    refine .cons_cons ?_ (ih hrest)
    exact precedes_of_subset (fun _ h => h) (fun _ h => h) fun x hx _ => hsub.subset hx

/-- A toast of a transaction that goes on shows what it is told to. -/
lemma entry_of_refresh (t : Tracker) {e' : HistoryEntry} (he' : e'.id = id) :
    ∀ y ∈ (t.act (.refresh e')).toasts, y.entry.id = id → y.entry = e' := by
  intro y hy hyid
  rw [Tracker.act, Tracker.refresh_toasts] at hy
  obtain ⟨x, -, rfl⟩ := List.mem_map.1 hy
  rw [Toast.update_id] at hyid
  exact Toast.update_entry_of_eq (hyid.trans he'.symm)

lemma precedes_of_refresh (hid : id ∉ finished)
    (hx : ∀ x ∈ t.toasts, x.entry.id = id → x.entry = e) {e' : HistoryEntry} (he' : e'.id = id)
    (hphase : TxPhase.Reaches e.phase e'.phase) :
    Precedes ⟨started, finished, t.toasts⟩
      ⟨started, finished, (t.act (.refresh e')).toasts⟩ := by
  refine ⟨fun _ h => h, fun _ h => h, fun y hy _ => ?_⟩
  rw [Tracker.act, Tracker.refresh_toasts] at hy
  obtain ⟨x, hxt, rfl⟩ := List.mem_map.1 hy
  refine ⟨x, hxt, ?_⟩
  by_cases hxid : x.entry.id = id
  · have hy' := Toast.update_entry_of_eq (hxid.trans he'.symm)
    refine ⟨⟨Toast.update_id _ _, Toast.update_title _ _, ?_⟩, fun hfin => ?_⟩
    · rw [hx x hxt hxid, hy']
      exact hphase
    · exact absurd (hxid ▸ hfin) hid
  · have hy' := Toast.update_of_ne (e := e') (x := x) fun h => hxid (h.trans he')
    rw [hy']
    exact ⟨Toast.Becomes.refl x, fun _ => rfl⟩

/-- Acts that show a transaction that has not ended. -/
lemma chain_of_plays (h : Plays id e.phase as) (hid : id ∉ finished)
    (hx : ∀ x ∈ t.toasts, x.entry.id = id → x.entry = e) (hf : finished ⊆ finished') :
    (⟨started, finished, t.toasts⟩ :: (momentsOf started finished t as
      ++ [⟨started, finished', (t.acts as).toasts⟩])).IsChain Precedes := by
  generalize hp : e.phase = p at h
  induction h generalizing e t with
  | nil phase =>
    exact .cons_cons (precedes_of_subset (fun _ h => h) hf fun _ h _ => h) (.singleton _)
  | refresh he' hphase _ ih =>
    rw [momentsOf_cons]
    refine .cons_cons (precedes_of_refresh hid hx he' (hp ▸ hphase)) ?_
    exact ih (entry_of_refresh _ he') rfl
  | @commit _ e' _ _ ih =>
    have htoasts : (t.act (.commit e')).toasts = t.toasts := Tracker.commit_toasts t e'
    rw [momentsOf_cons]
    refine .cons_cons ?_ (ih (htoasts ▸ hx) hp)
    rw [htoasts]
    exact precedes_of_subset (fun _ h => h) (fun _ h => h) fun _ h _ => h

/-- The toasts after such acts. -/
lemma mem_toasts_of_plays (h : Plays id e.phase as)
    (hx : ∀ x ∈ t.toasts, x.entry.id = id → x.entry = e) {y : Toast}
    (hy : y ∈ (t.acts as).toasts) :
    y.entry.id = id ∧ y.entry = lastShown e as ∨ y.entry.id ≠ id ∧ y ∈ t.toasts := by
  generalize hp : e.phase = p at h
  induction h generalizing e t with
  | nil phase =>
    by_cases hyid : y.entry.id = id
    · exact Or.inl ⟨hyid, hx y hy hyid⟩
    · exact Or.inr ⟨hyid, hy⟩
  | @refresh _ e' _ he' _ _ ih =>
    rcases ih (entry_of_refresh _ he') hy rfl with hshown | ⟨hyid, hmem⟩
    · exact Or.inl hshown
    · rw [Tracker.act, Tracker.refresh_toasts] at hmem
      obtain ⟨x, hxt, rfl⟩ := List.mem_map.1 hmem
      rw [Toast.update_id] at hyid
      rw [Toast.update_of_ne fun h => hyid (h.trans he')]
      exact Or.inr ⟨hyid, hxt⟩
  | @commit _ e' _ _ ih =>
    have htoasts : (t.act (.commit e')).toasts = t.toasts := Tracker.commit_toasts t e'
    rcases ih (htoasts ▸ hx) hy hp with hshown | hold
    · exact Or.inl hshown
    · rw [htoasts] at hold
      exact Or.inr hold

/-- What no act adds to is not added to at any moment. -/
lemma sublist_during {β : Type} (f : Tracker → List β)
    (h : ∀ a ∈ as, ∀ t, (f (t.act a)).Sublist (f t)) :
    (f (t.acts as)).Sublist (f t) ∧ ∀ t' ∈ t.during as, (f t').Sublist (f t) := by
  induction as generalizing t with
  | nil => exact ⟨List.Sublist.refl _, by simp [Tracker.during]⟩
  | cons a r ih =>
    have hact := h a (by simp) t
    obtain ⟨hend, hbetween⟩ := ih (t := t.act a) fun a ha => h a (by simp [ha])
    refine ⟨hend.trans hact, fun t' ht' => ?_⟩
    rcases List.mem_cons.1 ht' with rfl | ht'
    · exact hact
    · exact (hbetween t' ht').trans hact

lemma shownIds_act_of_plays {phase : Option TxPhase} (h : Plays id phase as) :
    ∀ a ∈ as, ∀ t : Tracker, (t.act a).shownIds = t.shownIds := by
  induction h with
  | nil phase => simp
  | @refresh _ e _ _ _ _ ih =>
    refine List.forall_mem_cons.2 ⟨fun t => ?_, ih⟩
    rw [Tracker.shownIds, Tracker.act, Tracker.refresh_toasts, List.map_map]
    exact List.map_congr_left fun x _ => Toast.update_id e x
  | @commit _ e _ _ ih =>
    refine List.forall_mem_cons.2 ⟨fun t => ?_, ih⟩
    rw [Tracker.shownIds, Tracker.act, Tracker.commit_toasts, Tracker.shownIds]

lemma shownIds_acts (h : ∀ a ∈ as, ∀ t : Tracker, (t.act a).shownIds = t.shownIds) :
    (t.acts as).shownIds = t.shownIds := by
  induction as generalizing t with
  | nil => rfl
  | cons a r ih => rw [Tracker.acts_cons, ih fun b hb => h b (by simp [hb]), h a (by simp)]

end Acts

end StellarWallet
