import Mathlib.Data.List.Perm.Subperm
import StellarWallet.Proofs.Tracker.Announcements

/-!
Who is told of changes.

Whoever subscribes a listener gets a handle that ends the subscription. A call of a handle ends the
oldest subscription of its listener that is left. If the listener has more than one, that may be
another than its own: a later one keeps its place in place of it, and a handle that is called again
ends a subscription whose own handle nobody has called. Listeners that are subscribed once are told
as their handles say; all others are never told more often than they should be, and as often as
they should be while no handle is called twice.
-/

namespace StellarWallet

/-- A subscription that was made on a tracker. -/
structure Subscription where
  listener : Listener
  /-- Its own handle has not been called yet. -/
  stands : Bool := true

namespace Subscription

/-- The code that was subscribed. -/
def code (ss : List Subscription) : List Nat := ss.map (·.listener.key)

/-- The code of the subscriptions whose own handles have not been called. -/
def standing (ss : List Subscription) : List Nat := code (ss.filter (·.stands))

lemma code_append (ss ts : List Subscription) : code (ss ++ ts) = code ss ++ code ts :=
  List.map_append

lemma standing_append (ss ts : List Subscription) :
    standing (ss ++ ts) = standing ss ++ standing ts := by
  rw [standing, List.filter_append, code_append]
  rfl

lemma standing_sublist (ss : List Subscription) : (standing ss).Sublist (code ss) :=
  List.filter_sublist.map _

lemma standing_of_stands {ss : List Subscription} (h : ∀ s ∈ ss, s.stands = true) :
    standing ss = code ss := by
  rw [standing, List.filter_eq_self.2 h]

end Subscription

/-- What is called to change who is told. -/
inductive AudienceCall where
  | subscribe (listener : Listener)
  /-- Calls the handle of a subscription, known by its position in the order of all that were
  made. -/
  | finish (handle : Nat)

/-- The handle that is called. -/
def AudienceCall.handle? : AudienceCall → Option Nat
  | .subscribe _ => none
  | .finish handle => some handle

/-- A tracker with all subscriptions that were made on it, the oldest first. -/
structure Audience where
  tracker : Tracker
  made : List Subscription

namespace Audience

open Subscription (code standing)

/-- The listeners that a tracker has, none of whose handles has been called. -/
def ofTracker (t : Tracker) : Audience := ⟨t, t.listeners.map fun l => { listener := l }⟩

def step (a : Audience) : AudienceCall → Audience
  | .subscribe l => ⟨a.tracker.subscribe l, a.made ++ [{ listener := l }]⟩
  | .finish handle =>
    match a.made[handle]? with
    | some s =>
      ⟨a.tracker.unsubscribe s.listener.key, a.made.set handle { s with stands := false }⟩
    | none => a

def steps (a : Audience) (cs : List AudienceCall) : Audience := cs.foldl step a

/-- The code that a notification reaches, one time for each subscription. -/
def hearers (a : Audience) : List Nat := a.tracker.listeners.map (·.key)

/-- The code was subscribed at most once. -/
def IsSingle (a : Audience) (key : Nat) : Prop := (code a.made).count key ≤ 1

instance (a : Audience) (key : Nat) : Decidable (a.IsSingle key) :=
  inferInstanceAs (Decidable (_ ≤ _))

variable {a : Audience} {handle : Nat} {s : Subscription}

/-! ### One call -/

lemma map_key_dropListener (key : Nat) (ls : List Listener) :
    (Tracker.dropListener key ls).map (·.key) = (ls.map (·.key)).erase key := by
  induction ls with
  | nil => rfl
  | cons l r ih =>
    rw [Tracker.dropListener, List.map_cons, List.erase_cons]
    by_cases h : l.key = key
    · rw [if_pos h, if_pos (beq_iff_eq.2 h)]
    · rw [if_neg h, if_neg (mt beq_iff_eq.1 h), List.map_cons, ih]

lemma hearers_subscribe (a : Audience) (l : Listener) :
    (a.step (.subscribe l)).hearers = a.hearers ++ [l.key] := List.map_append

lemma standing_subscribe (a : Audience) (l : Listener) :
    standing (a.step (.subscribe l)).made = standing a.made ++ [l.key] :=
  Subscription.standing_append _ _

lemma step_finish (h : a.made[handle]? = some s) : a.step (.finish handle)
    = ⟨a.tracker.unsubscribe s.listener.key, a.made.set handle { s with stands := false }⟩ := by
  rw [step, h]

lemma step_finish_of_none (h : a.made[handle]? = none) : a.step (.finish handle) = a := by
  rw [step, h]

lemma hearers_finish (h : a.made[handle]? = some s) :
    (a.step (.finish handle)).hearers = a.hearers.erase s.listener.key := by
  rw [step_finish h]
  exact map_key_dropListener _ _

/-- The subscriptions before one and after it. -/
lemma exists_split (h : a.made[handle]? = some s) : ∃ before after,
    a.made = before ++ s :: after ∧
      (a.step (.finish handle)).made = before ++ { s with stands := false } :: after := by
  obtain ⟨hlt, hs⟩ := List.getElem?_eq_some_iff.1 h
  refine ⟨a.made.take handle, a.made.drop (handle + 1), ?_, ?_⟩
  · rw [← hs, List.getElem_cons_drop, List.take_append_drop]
  · rw [step_finish h]
    exact List.set_eq_take_append_cons_drop.trans (if_pos hlt)

lemma code_finish (a : Audience) (handle : Nat) :
    code (a.step (.finish handle)).made = code a.made := by
  cases h : a.made[handle]? with
  | none => rw [step_finish_of_none h]
  | some s =>
    obtain ⟨before, after, hmade, hmade'⟩ := exists_split h
    rw [hmade, hmade', Subscription.code_append, Subscription.code_append]
    rfl

/-- A handle takes its own subscription out of those that stand, unless it has done so before. -/
lemma standing_finish (h : a.made[handle]? = some s) : ∃ before after,
    a.made = before ++ s :: after ∧
    standing (a.step (.finish handle)).made = standing before ++ standing after ∧
    standing a.made = standing before
      ++ ((if s.stands then [s.listener.key] else []) ++ standing after) := by
  obtain ⟨before, after, hmade, hmade'⟩ := exists_split h
  refine ⟨before, after, hmade, ?_, ?_⟩
  · rw [hmade', Subscription.standing_append]
    rfl
  · rw [hmade, Subscription.standing_append]
    refine congrArg (standing before ++ ·) ?_
    cases hs : s.stands with
    | true => rw [standing, List.filter_cons_of_pos hs, if_pos rfl]; rfl
    | false => rw [standing, List.filter_cons_of_neg (Bool.eq_false_iff.1 hs),
        if_neg Bool.false_ne_true]; rfl

/-! ### Code that is subscribed once -/

/-- Of such code there is no other subscription that a handle could take out. -/
lemma standing_finish_of_isSingle (h : a.made[handle]? = some s)
    (hs : a.IsSingle s.listener.key) :
    standing (a.step (.finish handle)).made = (standing a.made).erase s.listener.key := by
  obtain ⟨before, after, hmade, hafter, hbefore⟩ := standing_finish h
  have hcount :
      (code before).count s.listener.key + ((code after).count s.listener.key + 1) ≤ 1 := by
    rw [IsSingle, hmade, Subscription.code_append, List.count_append] at hs
    exact le_of_eq_of_le (congrArg _ List.count_cons_self.symm) hs
  have hnone : s.listener.key ∉ standing before ∧ s.listener.key ∉ standing after := by
    constructor
    · intro hmem
      have := List.count_pos_iff.2 ((Subscription.standing_sublist before).subset hmem)
      omega
    · intro hmem
      have := List.count_pos_iff.2 ((Subscription.standing_sublist after).subset hmem)
      omega
  rw [hafter, hbefore, List.erase_append_right _ hnone.1]
  cases s.stands with
  | true => rw [if_pos rfl, List.singleton_append, List.erase_cons_head]
  | false => rw [if_neg Bool.false_ne_true, List.nil_append, List.erase_of_not_mem hnone.2]

/-- Among some code that is subscribed once, a call keeps those right that are told. -/
lemma filter_step {p : Nat → Bool} (c : AudienceCall) (hp : ∀ key, p key = true → a.IsSingle key)
    (h : a.hearers.filter p = (standing a.made).filter p) :
    (a.step c).hearers.filter p = (standing (a.step c).made).filter p := by
  cases c with
  | subscribe l =>
    rw [hearers_subscribe, standing_subscribe, List.filter_append, List.filter_append, h]
  | finish handle =>
    cases hs : a.made[handle]? with
    | none => rw [step_finish_of_none hs, h]
    | some s =>
      rw [hearers_finish hs, ← List.erase_filter, h]
      cases hkey : p s.listener.key with
      | true => rw [standing_finish_of_isSingle hs (hp _ hkey), List.erase_filter]
      | false =>
        obtain ⟨before, after, -, hafter, hbefore⟩ := standing_finish hs
        have hother : s.listener.key ∉ (standing a.made).filter p := by
          rw [List.mem_filter, hkey]
          exact fun hmem => Bool.false_ne_true hmem.2
        have hown : (if s.stands then [s.listener.key] else []).filter p = [] := by
          cases s.stands <;> simp [hkey]
        rw [List.erase_of_not_mem hother, hafter, hbefore, List.filter_append, List.filter_append,
          List.filter_append, hown, List.nil_append]

lemma isSingle_of_step {key : Nat} (c : AudienceCall) (h : (a.step c).IsSingle key) :
    a.IsSingle key := by
  cases c with
  | subscribe l =>
    rw [IsSingle, step, Subscription.code_append, List.count_append] at h
    exact Nat.le_trans (Nat.le_add_right _ _) h
  | finish handle =>
    rw [IsSingle, code_finish] at h
    exact h

lemma isSingle_of_steps {key : Nat} (cs : List AudienceCall) (h : (a.steps cs).IsSingle key) :
    a.IsSingle key := by
  induction cs generalizing a with
  | nil => exact h
  | cons c cs ih => exact isSingle_of_step c (ih h)

lemma filter_steps {p : Nat → Bool} (cs : List AudienceCall)
    (hp : ∀ key, p key = true → (a.steps cs).IsSingle key)
    (h : a.hearers.filter p = (standing a.made).filter p) :
    (a.steps cs).hearers.filter p = (standing (a.steps cs).made).filter p := by
  induction cs generalizing a with
  | nil => exact h
  | cons c cs ih =>
    refine ih hp (filter_step c (fun key hkey => ?_) h)
    exact isSingle_of_steps (c :: cs) (hp key hkey)

/-! ### Any code -/

/-- What stands before a handle is called is what stands afterwards, and its own subscription if the
handle has not been called before. -/
lemma standing_perm_finish (h : a.made[handle]? = some s) :
    (standing a.made).Perm ((if s.stands then [s.listener.key] else [])
      ++ standing (a.step (.finish handle)).made) := by
  obtain ⟨before, after, -, hafter, hbefore⟩ := standing_finish h
  rw [hafter, hbefore]
  exact List.perm_append_comm_assoc _ _ _

lemma subperm_step (c : AudienceCall) (h : a.hearers.Subperm (standing a.made)) :
    (a.step c).hearers.Subperm (standing (a.step c).made) := by
  cases c with
  | subscribe l =>
    rw [hearers_subscribe, standing_subscribe]
    exact (List.subperm_append_right _).2 h
  | finish handle =>
    cases hs : a.made[handle]? with
    | none => rw [step_finish_of_none hs]; exact h
    | some s =>
      have hperm := h.trans (standing_perm_finish hs).subperm
      rw [hearers_finish hs]
      cases hstands : s.stands with
      | true =>
        rw [hstands, if_pos rfl] at hperm
        have herase := hperm.erase s.listener.key
        rw [List.singleton_append, List.erase_cons_head] at herase
        exact herase
      | false =>
        rw [hstands, if_neg Bool.false_ne_true] at hperm
        exact List.erase_sublist.subperm.trans hperm

lemma subperm_steps (cs : List AudienceCall) (h : a.hearers.Subperm (standing a.made)) :
    (a.steps cs).hearers.Subperm (standing (a.steps cs).made) := by
  induction cs generalizing a with
  | nil => exact h
  | cons c cs ih => exact ih (subperm_step c h)

lemma perm_finish (hs : a.made[handle]? = some s) (hstands : s.stands = true)
    (h : a.hearers.Perm (standing a.made)) :
    (a.step (.finish handle)).hearers.Perm (standing (a.step (.finish handle)).made) := by
  have hperm := (h.trans (standing_perm_finish hs)).erase s.listener.key
  rw [hstands, if_pos rfl, List.singleton_append, List.erase_cons_head] at hperm
  rw [hearers_finish hs]
  exact hperm

/-- The handles still to be called have not been called yet. -/
def AreFresh (a : Audience) (handles : List Nat) : Prop :=
  ∀ i ∈ handles, ∀ s, a.made[i]? = some s → s.stands = true

lemma areFresh_subscribe {handles : List Nat} (h : a.AreFresh handles) (l : Listener) :
    (a.step (.subscribe l)).AreFresh handles := by
  intro i hi s hs
  rw [step, List.getElem?_append] at hs
  split at hs
  · exact h i hi s hs
  · rw [List.mem_singleton.1 (List.mem_of_getElem? hs)]

lemma areFresh_finish {handles : List Nat} (h : a.AreFresh handles) (hnew : handle ∉ handles) :
    (a.step (.finish handle)).AreFresh handles := by
  intro i hi s hs
  have hne : handle ≠ i := fun heq => hnew (heq ▸ hi)
  cases hown : a.made[handle]? with
  | none =>
    rw [step_finish_of_none hown] at hs
    exact h i hi s hs
  | some s' =>
    rw [step_finish hown, List.getElem?_set_ne hne] at hs
    exact h i hi s hs

/-- While no handle is called twice, each call ends as many subscriptions as it should. -/
lemma perm_steps (cs : List AudienceCall) (hfresh : a.AreFresh (cs.filterMap (·.handle?)))
    (honce : (cs.filterMap (·.handle?)).Nodup) (h : a.hearers.Perm (standing a.made)) :
    (a.steps cs).hearers.Perm (standing (a.steps cs).made) := by
  induction cs generalizing a with
  | nil => exact h
  | cons c cs ih =>
    cases c with
    | subscribe l =>
      refine ih (areFresh_subscribe hfresh l) honce ?_
      rw [hearers_subscribe, standing_subscribe]
      exact h.append_right _
    | finish handle =>
      obtain ⟨hnew, hrest⟩ := List.nodup_cons.1 honce
      refine ih (areFresh_finish (fun i hi => hfresh i (List.mem_cons_of_mem _ hi)) hnew) hrest ?_
      cases hs : a.made[handle]? with
      | none => rw [step_finish_of_none hs]; exact h
      | some s => exact perm_finish hs (hfresh handle (List.mem_cons_self ..) s hs) h

lemma standing_ofTracker (t : Tracker) :
    standing (ofTracker t).made = (ofTracker t).hearers := by
  have hall : ∀ s ∈ (ofTracker t).made, s.stands = true := by
    intro s hs
    obtain ⟨l, -, rfl⟩ := List.mem_map.1 hs
    rfl
  rw [Subscription.standing_of_stands hall]
  exact List.map_map

/-- **Handles and their own subscriptions.** After any calls, a notification reaches the listeners
of the tracker in order. Among the code that was subscribed at most once these are, in order, the
subscriptions whose own handles have not been called. Of all code they are no more than those, and
if no handle has been called twice they are as many. -/
theorem handles_end_subscriptions (t : Tracker) (cs : List AudienceCall) :
    let a := (ofTracker t).steps cs
    (∀ event, (a.tracker.notify event).delivered
      = a.tracker.delivered ++ a.hearers.map fun key => (key, event)) ∧
    a.hearers.filter (a.IsSingle ·) = (standing a.made).filter (a.IsSingle ·) ∧
    a.hearers.Subperm (standing a.made) ∧
    ((cs.filterMap (·.handle?)).Nodup → a.hearers.Perm (standing a.made)) := by
  intro a
  have hstart := (standing_ofTracker t).symm
  refine ⟨fun event => ?_, ?_, ?_, fun honce => ?_⟩
  · rw [Tracker.notify_delivered, hearers, List.map_map]
    rfl
  · exact filter_steps cs (fun key => of_decide_eq_true) (congrArg _ hstart)
  · exact subperm_steps cs (hstart ▸ List.Subperm.refl _)
  · refine perm_steps cs (fun i _ s hs => ?_) honce (hstart ▸ List.Perm.refl _)
    obtain ⟨l, -, rfl⟩ := List.mem_map.1 (List.mem_of_getElem? hs)
    rfl

/-- A listener is subscribed before another one and behind it, and its second handle is called: the
second subscription takes the place of the first. -/
theorem second_handle_ends_first :
    let t : Tracker := { history := { storage := { backend := .memory [] } }
                         links := ⟨"https://classic", "https://soroban"⟩ }
    let cs : List AudienceCall := [.subscribe { key := 7 }, .subscribe { key := 8 },
      .subscribe { key := 7 }, .finish 2]
    let a := (ofTracker t).steps cs
    a.hearers = [8, 7] ∧ standing a.made = [7, 8] ∧ (cs.filterMap (·.handle?)).Nodup ∧
      a.hearers.Perm (standing a.made) := by
  intro t cs a
  have honce : (cs.filterMap (·.handle?)).Nodup := by decide
  exact ⟨rfl, rfl, honce, (handles_end_subscriptions t cs).2.2.2 honce⟩

/-- A listener is subscribed twice and one handle is called twice: nobody is told any more, though
the other handle has not been called. -/
theorem repeated_handle_ends_other :
    let t : Tracker := { history := { storage := { backend := .memory [] } }
                         links := ⟨"https://classic", "https://soroban"⟩ }
    let a := (ofTracker t).steps [.subscribe { key := 7 }, .subscribe { key := 7 }, .finish 0,
      .finish 0]
    a.hearers = [] ∧ standing a.made = [7] ∧ (a.tracker.notify .historyChanged).delivered = [] :=
  ⟨rfl, rfl, rfl⟩

end Audience

end StellarWallet
