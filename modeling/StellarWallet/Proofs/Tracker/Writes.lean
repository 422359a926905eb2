import StellarWallet.Proofs.Tracker.Display

/-!
The writes of a run.

Every act that records an entry or drops the history changes the list in memory, whatever becomes of
the storage. The list is what all these writes make of the one at the start, and the last record of
a call that has ended is the entry that the call was left with.
-/

namespace StellarWallet

namespace TrackerAct

/-- The change of the list in memory that an act makes. -/
def change? : TrackerAct → Option HistoryChange
  | .commit e => some (.added e)
  | .clear => some .cleared
  | _ => none

end TrackerAct

open TrackerAct

namespace Tracker

lemma maxItems_act (t : Tracker) (a : TrackerAct) :
    (t.act a).history.maxItems = t.history.maxItems := by
  cases a with
  | commit e =>
    obtain ⟨storage, hpush⟩ := t.history.push_eq e
    rw [act, (t.commit_eq e).2, hpush]
  | clear =>
    obtain ⟨storage, hclear⟩ := t.history.clear_eq
    rw [act, t.clear_history, hclear]
  | present x => rw [act, present_history]
  | refresh e => rw [act, refresh_history]
  | dismiss id => rw [act, dismiss_history]
  | _ => rfl

lemma entries_act (t : Tracker) (a : TrackerAct) :
    (t.act a).history.entries
      = a.change?.toList.foldl (HistoryChange.apply t.history.maxItems) t.history.entries := by
  cases a with
  | commit e =>
    obtain ⟨storage, hpush⟩ := t.history.push_eq e
    rw [act, (t.commit_eq e).2, hpush]
    rfl
  | clear =>
    obtain ⟨storage, hclear⟩ := t.history.clear_eq
    rw [act, t.clear_history, hclear]
    rfl
  | present x => rw [act, present_history]; rfl
  | refresh e => rw [act, refresh_history]; rfl
  | dismiss id => rw [act, dismiss_history]; rfl
  | _ => rfl

lemma entries_acts (t : Tracker) (as : List TrackerAct) :
    (t.acts as).history.maxItems = t.history.maxItems ∧
    (t.acts as).history.entries
      = (as.filterMap change?).foldl (HistoryChange.apply t.history.maxItems)
        t.history.entries := by
  induction as generalizing t with
  | nil => exact ⟨rfl, rfl⟩
  | cons a r ih =>
    obtain ⟨hmax, hentries⟩ := ih (t.act a)
    rw [maxItems_act] at hmax hentries
    refine ⟨hmax, ?_⟩
    rw [acts_cons, hentries, entries_act]
    cases ha : a.change? with
    | none => rw [List.filterMap_cons_none ha]; rfl
    | some c => rw [List.filterMap_cons_some ha]; rfl

end Tracker

namespace TrackerRun

/-- The changes that a step makes in the list in memory, and the call whose step it is. -/
def writesOf (r : TrackerRun) (s : TrackerStep) : List HistoryEvent :=
  ((r.actsOf s).filterMap change?).map (HistoryEvent.mk (s.target.map (·.1)))

/-- The changes that a run makes in the list in memory, the oldest first. -/
def writes (r : TrackerRun) : List TrackerStep → List HistoryEvent
  | [] => []
  | s :: ss => r.writesOf s ++ (r.step s).writes ss

variable {r : TrackerRun} {s : TrackerStep}

lemma writes_append (r : TrackerRun) (ss : List TrackerStep) (s : TrackerStep) :
    r.writes (ss ++ [s]) = r.writes ss ++ (r.steps ss).writesOf s := by
  induction ss generalizing r with
  | nil => rw [List.nil_append, writes, writes, writes, List.append_nil]; rfl
  | cons a ss ih =>
    rw [List.cons_append, writes, ih, writes, List.append_assoc]
    rfl

/-- The list in memory is what the writes of the run have made of it. -/
theorem entries_steps (r : TrackerRun) (ss : List TrackerStep) :
    (r.steps ss).tracker.history.entries
      = ((r.writes ss).map (·.change)).foldl (HistoryChange.apply r.tracker.history.maxItems)
        r.tracker.history.entries := by
  induction ss generalizing r with
  | nil => rfl
  | cons s ss ih =>
    obtain ⟨hmax, hentries⟩ := r.tracker.entries_acts (r.actsOf s)
    rw [← step_tracker] at hmax hentries
    have hwrites : (r.writesOf s).map (·.change) = (r.actsOf s).filterMap change? := by
      rw [writesOf, List.map_map]
      exact List.map_id _
    rw [writes, List.map_append, List.foldl_append, hwrites, ← hentries, ← hmax]
    exact ih (r.step s)

/-- The records that a call makes in a step of its own. -/
lemma recordsOf_writesOf {i : Nat} {own : CallStep} (ht : s.target = some (i, own)) :
    recordsOf i (r.writesOf s) = (r.actsOf s).filterMap record? := by
  rw [recordsOf, writesOf, List.filterMap_map, List.filterMap_filterMap, ht]
  refine congrArg (List.filterMap · (r.actsOf s)) (funext fun a => ?_)
  cases a with
  | commit e => exact if_pos rfl
  | _ => rfl

/-- The records that a call makes in a step that is not its own. -/
lemma recordsOf_writesOf_of_ne {i : Nat} (ht : s.target.map (·.1) ≠ some i) :
    recordsOf i (r.writesOf s) = [] := by
  refine recordsOf_of_source fun e he => ?_
  obtain ⟨c, -, rfl⟩ := List.mem_map.1 he
  exact ht

end TrackerRun

end StellarWallet
