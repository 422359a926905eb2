import Mathlib.Data.List.Induction
import StellarWallet.Proofs.History.Changes
import StellarWallet.Proofs.Tracker.Progress

/-!
Calls that run at the same time on one tracker.

Each call of a run becomes what its own steps make of it when nothing else happens, and adds one
record when it ends. The list in memory is the front of what the changes of the run leave.
-/

namespace StellarWallet

/-- A tracker with nothing on it but the links. -/
def Tracker.blank (links : ExplorerLinks) : Tracker :=
  { history := { storage := { backend := .memory [] } }, links }

/-- What the steps of a call make of it when nothing else happens. -/
def Call.alone (links : ExplorerLinks) (info : TxMeta) (id timestamp : String)
    (own : List CallStep) : Call :=
  let started := start (Tracker.blank links) info id timestamp
  (started.1.run started.2 own).1

lemma Call.alone_eq (links : ExplorerLinks) (info : TxMeta) (id timestamp : String)
    {own : List CallStep} (hn : ∀ s ∈ own, s.KindIsText) :
    alone links info id timestamp own = own.foldl (next links) (pending info id timestamp) := by
  obtain ⟨hc, hh, hl⟩ := start_eq (Tracker.blank links) info id timestamp
  have hq : (start (Tracker.blank links) info id timestamp).2.history.Quiet := by
    rw [hh]
    exact ⟨by simp [Tracker.blank], by simp [Tracker.blank]⟩
  have hk : (pending info id timestamp).entry.kind.IsKnown := ⟨info.kind, rfl⟩
  obtain ⟨hr, -⟩ := run_settles hq hk hn rfl
  rw [hl] at hr
  rw [alone, hc]
  exact hr

namespace TrackerStep

/-- The call that takes a step, and its part in it. -/
def target : TrackerStep → Option (Nat × CallStep)
  | .setPhase call phase => some (call, .setPhase phase)
  | .finishWork call ending => some (call, .finishWork ending)
  | .finishConfirmation call ending => some (call, .finishConfirmation ending)
  | _ => none

/-- The part of one call in a step. -/
def ownOf (i : Nat) (s : TrackerStep) : Option CallStep :=
  s.target.bind fun (call, step) => if call = i then some step else none

/-- A step within the assumptions: a kind among the fields that work hands over is missing, null or
a text, and writes are refused with faults that are only noted. -/
def IsTame : TrackerStep → Prop
  | .finishWork _ ending => ending.KindIsText
  | .refuseWrites fault => ∀ f, fault = some f → History.isAbsorbed f.kind = true
  | _ => True

lemma ownOf_of_target {s : TrackerStep} {i : Nat} {own : CallStep}
    (h : s.target = some (i, own)) : s.ownOf i = some own := by
  simp [ownOf, h]

lemma ownOf_of_target_ne {s : TrackerStep} {i j : Nat} {own : CallStep}
    (h : s.target = some (j, own)) (hij : j ≠ i) : s.ownOf i = none := by
  simp [ownOf, h, hij]

lemma ownOf_of_noTarget {s : TrackerStep} (h : s.target = none) (i : Nat) : s.ownOf i = none := by
  simp [ownOf, h]

lemma target_of_ownOf {s : TrackerStep} {i : Nat} {own : CallStep} (h : s.ownOf i = some own) :
    s.target = some (i, own) := by
  obtain ⟨⟨j, own'⟩, ht, hj⟩ := Option.bind_eq_some_iff.1 h
  dsimp only at hj
  split at hj
  · next hji =>
    cases hj
    rw [ht, hji]
  · cases hj

/-- The part of a call in a tame step is tame. -/
lemma IsTame.kindIsText {s : TrackerStep} (h : s.IsTame) {i : Nat} {own : CallStep}
    (ho : s.target = some (i, own)) : own.KindIsText := by
  cases s with
  | setPhase call phase => cases ho; trivial
  | finishWork call ending => cases ho; exact h
  | finishConfirmation call ending => cases ho; trivial
  | _ => cases ho

end TrackerStep

/-- The steps of one call among all. -/
def ownSteps (i : Nat) (ss : List TrackerStep) : List CallStep := ss.filterMap (·.ownOf i)

/-- A change of the history, and the call that made it, if it was one. -/
structure HistoryEvent where
  source : Option Nat
  change : HistoryChange

/-- The record that a call has made. -/
def HistoryEvent.recordOf (i : Nat) (event : HistoryEvent) : Option HistoryEntry :=
  match event with
  | ⟨some j, .added e⟩ => if j = i then some e else none
  | _ => none

/-- The records that a call has made. -/
def recordsOf (i : Nat) (log : List HistoryEvent) : List HistoryEntry :=
  log.filterMap (·.recordOf i)

namespace TrackerRun

/-- The record that a call makes when it ends by a step. -/
def callEvent? (r : TrackerRun) (s : TrackerStep) : Option HistoryEvent := do
  let (i, _) ← s.target
  let before ← r.calls[i]?
  let after ← (r.step s).calls[i]?
  if before.isEnded = false ∧ after.isEnded = true then some ⟨some i, .added after.entry⟩
  else none

/-- The change of the history that a step is for: a draft is added, the history is dropped, or the
outcome of a call is added when the call ends. -/
def event? (r : TrackerRun) (s : TrackerStep) : Option HistoryEvent :=
  match s with
  | .append draft => some ⟨none, .added (draft.entry r.tracker.links r.nextId r.timestamp)⟩
  | .clear => some ⟨none, .cleared⟩
  | s => r.callEvent? s

/-- The changes of the history that some steps are for, the newest first. -/
def logged (r : TrackerRun) : List TrackerStep → List HistoryEvent
  | [] => []
  | s :: ss => (r.step s).logged ss ++ (r.event? s).toList

lemma steps_append (r : TrackerRun) (ss : List TrackerStep) (s : TrackerStep) :
    r.steps (ss ++ [s]) = (r.steps ss).step s := by
  rw [steps, List.foldl_append]
  rfl

lemma logged_append (r : TrackerRun) (ss : List TrackerStep) (s : TrackerStep) :
    r.logged (ss ++ [s]) = ((r.steps ss).event? s).toList ++ r.logged ss := by
  induction ss generalizing r with
  | nil => rw [List.nil_append, logged, logged, logged, List.nil_append, List.append_nil]; rfl
  | cons a ss ih =>
    rw [List.cons_append, logged, ih, logged, List.append_assoc]
    rfl

/-! ### One step -/

variable {r : TrackerRun} {s : TrackerStep} {i : Nat}

/-- The list in memory after an event, if there is one. -/
def afterEvent (r : TrackerRun) (event : Option HistoryEvent) : List HistoryEntry :=
  match event with
  | some event => event.change.apply r.tracker.history.maxItems r.tracker.history.entries
  | none => r.tracker.history.entries

lemma step_of_target {own : CallStep} (h : s.target = some (i, own)) :
    r.step s = r.onCall i fun c t => c.step t own := by
  cases s with
  | setPhase call phase => cases h; rfl
  | finishWork call ending => cases h; rfl
  | finishConfirmation call ending => cases h; rfl
  | _ => cases h

lemma event?_of_target {own : CallStep} (h : s.target = some (i, own)) :
    r.event? s = r.callEvent? s := by
  cases s with
  | append draft => cases h
  | clear => cases h
  | _ => rfl

lemma callEvent?_eq {own : CallStep} (h : s.target = some (i, own)) {c c' : Call}
    (hc : r.calls[i]? = some c) (hc' : (r.step s).calls[i]? = some c') :
    r.callEvent? s = if c.isEnded = false ∧ c'.isEnded = true then
      some ⟨some i, .added c'.entry⟩ else none := by
  simp only [callEvent?, h, Option.bind_eq_bind, Option.bind_some, hc, hc']

lemma callEvent?_of_missing {own : CallStep} (h : s.target = some (i, own))
    (hc : r.calls[i]? = none) : r.callEvent? s = none := by
  simp only [callEvent?, h, Option.bind_eq_bind, Option.bind_some, hc, Option.bind_none]

/-- A step of a call that has been started: the call goes on as it would alone, and is recorded
when it ends. -/
lemma step_call (hq : r.tracker.history.Quiet) (hs : s.IsTame) {own : CallStep} {c : Call}
    (h : s.target = some (i, own)) (hc : r.calls[i]? = some c) (hk : c.entry.kind.IsKnown) :
    (r.step s).calls = r.calls.set i (c.next r.tracker.links own) ∧
      r.event? s = (if c.isEnded = false ∧ (c.next r.tracker.links own).isEnded = true then
        some ⟨some i, .added (c.next r.tracker.links own).entry⟩ else none) ∧
      r.tracker.Holds (r.step s).tracker (r.afterEvent (r.event? s)) := by
  obtain ⟨hn, hh⟩ := Call.step_of_quiet hq hk (hs.kindIsText h)
  have hstep : r.step s = { r with
      tracker := (c.step r.tracker own).2
      calls := r.calls.set i (c.step r.tracker own).1 } := by
    rw [step_of_target h, onCall, hc]
  have hcalls : (r.step s).calls = r.calls.set i (c.next r.tracker.links own) := by
    rw [hstep, ← hn]
  have hlt : i < r.calls.length := (List.getElem?_eq_some_iff.1 hc).1
  have hget : (r.step s).calls[i]? = some (c.next r.tracker.links own) := by
    rw [hcalls, List.getElem?_set_self hlt]
  have he := callEvent?_eq h hc hget
  rw [← event?_of_target h] at he
  refine ⟨hcalls, he, ?_⟩
  rw [he, hstep]
  split
  · next hend => rwa [if_pos hend] at hh
  · next hend => rwa [if_neg hend] at hh

/-- A step of a call that was never started changes nothing. -/
lemma step_missing {own : CallStep} (h : s.target = some (i, own)) (hc : r.calls[i]? = none) :
    r.step s = r ∧ r.event? s = none := by
  refine ⟨?_, ?_⟩
  · rw [step_of_target h, onCall, hc]
  · rw [event?_of_target h, callEvent?_of_missing h hc]

/-- A step that is no call's: only a start adds a call. -/
lemma calls_step_of_noTarget (h : s.target = none) :
    (r.step s).calls = r.calls ++ (match s with
      | .start info => [Call.pending info r.nextId r.timestamp]
      | _ => []) := by
  cases s with
  | setPhase call phase => cases h
  | finishWork call ending => cases h
  | finishConfirmation call ending => cases h
  | start info => rfl
  | _ => exact (List.append_nil _).symm

/-- A step that is no call's makes no call's change of the history. -/
lemma step_other (hq : r.tracker.history.Quiet) (hs : s.IsTame) (h : s.target = none) :
    (∀ event, r.event? s = some event → event.source = none) ∧
      r.tracker.Holds (r.step s).tracker (r.afterEvent (r.event? s)) := by
  cases s with
  | start info =>
    obtain ⟨-, hh, hl⟩ := Call.start_eq r.tracker info r.nextId r.timestamp
    exact ⟨by rintro event ⟨⟩, Tracker.Holds.of_history hq hh hl⟩
  | append draft =>
    have hd : (draft.entry r.tracker.links r.nextId r.timestamp).kind.IsKnown := ⟨draft.kind, rfl⟩
    refine ⟨?_, (Tracker.commit_of_quiet hq hd).2⟩
    rintro event ⟨⟩
    rfl
  | clear =>
    refine ⟨?_, Tracker.clear_of_quiet hq⟩
    rintro event ⟨⟩
    rfl
  | dismiss id =>
    refine ⟨by rintro event ⟨⟩, ?_⟩
    exact Tracker.Holds.of_history hq (Tracker.dismiss_history _ _) (Tracker.dismiss_links _ _)
  | refuseWrites fault => exact ⟨by rintro event ⟨⟩, rfl, rfl, rfl, hq.known, hs⟩
  | subscribe listener => exact ⟨by rintro event ⟨⟩, Tracker.Holds.of_history hq rfl rfl⟩
  | unsubscribe key => exact ⟨by rintro event ⟨⟩, Tracker.Holds.of_history hq rfl rfl⟩
  | setClock now => exact ⟨by rintro event ⟨⟩, Tracker.Holds.of_history hq rfl rfl⟩
  | setPhase call phase => cases h
  | finishWork call ending => cases h
  | finishConfirmation call ending => cases h

/-! ### All steps -/

/-- A call that is there after a step that is no call's. -/
lemma getElem?_step_other (ht : s.target = none) {c : Call}
    (hc : (r.step s).calls[i]? = some c) :
    (∃ info, s = .start info ∧ i = r.calls.length ∧
      c = Call.pending info r.nextId r.timestamp) ∨ r.calls[i]? = some c := by
  rw [calls_step_of_noTarget ht] at hc
  rcases Nat.lt_or_ge i r.calls.length with hi | hi
  · rw [List.getElem?_append_left hi] at hc
    exact Or.inr hc
  · rw [List.getElem?_append_right hi] at hc
    cases s with
    | start info =>
      obtain ⟨hlt, hget⟩ := List.getElem?_eq_some_iff.1 hc
      have hlen : i = r.calls.length := by
        simp only [List.length_singleton] at hlt
        omega
      refine Or.inl ⟨info, rfl, hlen, ?_⟩
      rw [← hget, List.getElem_singleton]
    | _ => cases hc

/-- A call that is there after a step of a call. -/
lemma getElem?_step_call (hq : r.tracker.history.Quiet)
    (hk : ∀ c ∈ r.calls, c.entry.kind.IsKnown) (hs : s.IsTame) {j : Nat} {own : CallStep}
    (ht : s.target = some (j, own)) {c : Call} (hc : (r.step s).calls[i]? = some c) :
    ∃ c₀, r.calls[i]? = some c₀ ∧
      c = (s.ownOf i).toList.foldl (Call.next r.tracker.links) c₀ := by
  by_cases hij : j = i
  · subst hij
    rw [TrackerStep.ownOf_of_target ht]
    cases hj : r.calls[j]? with
    | none =>
      rw [(step_missing ht hj).1, hj] at hc
      cases hc
    | some c₀ =>
      obtain ⟨hcalls, -⟩ := step_call hq hs ht hj (hk c₀ (List.mem_of_getElem? hj))
      have hlt : j < r.calls.length := (List.getElem?_eq_some_iff.1 hj).1
      rw [hcalls, List.getElem?_set_self hlt] at hc
      exact ⟨c₀, rfl, (Option.some.inj hc).symm⟩
  · rw [TrackerStep.ownOf_of_target_ne ht hij]
    refine ⟨c, ?_, rfl⟩
    cases hj : r.calls[j]? with
    | none =>
      rw [(step_missing ht hj).1] at hc
      exact hc
    | some c₀ =>
      obtain ⟨hcalls, -⟩ := step_call hq hs ht hj (hk c₀ (List.mem_of_getElem? hj))
      rw [hcalls, List.getElem?_set_ne hij] at hc
      exact hc

/-- A call that is there after a step has just been started, or was there and has taken its part in
the step. -/
lemma getElem?_step (hq : r.tracker.history.Quiet) (hk : ∀ c ∈ r.calls, c.entry.kind.IsKnown)
    (hs : s.IsTame) {c : Call} (hc : (r.step s).calls[i]? = some c) :
    (∃ info, s = .start info ∧ i = r.calls.length ∧
      c = Call.pending info r.nextId r.timestamp) ∨
    ∃ c₀, r.calls[i]? = some c₀ ∧
      c = (s.ownOf i).toList.foldl (Call.next r.tracker.links) c₀ := by
  cases ht : s.target with
  | none =>
    rw [TrackerStep.ownOf_of_noTarget ht]
    exact (getElem?_step_other ht hc).imp_right fun hold => ⟨c, hold, rfl⟩
  | some p => exact Or.inr (getElem?_step_call hq hk hs ht hc)

/-- The record that a call should have made: its outcome, once it has ended. -/
def outcomeOf (r : TrackerRun) (i : Nat) : List HistoryEntry :=
  (r.calls[i]?.filter (·.isEnded)).toList.map (·.entry)

lemma outcomeOf_of_getElem? {c : Call} (h : r.calls[i]? = some c) :
    r.outcomeOf i = if c.isEnded then [c.entry] else [] := by
  rw [outcomeOf, h]
  cases hc : c.isEnded <;> simp [hc]

lemma outcomeOf_of_missing (h : r.calls[i]? = none) : r.outcomeOf i = [] := by
  rw [outcomeOf, h]
  rfl

/-- A step that is no call's gives no call an outcome. -/
lemma outcomeOf_step_other (ht : s.target = none) (i : Nat) :
    (r.step s).outcomeOf i = r.outcomeOf i := by
  rcases Nat.lt_or_ge i r.calls.length with hi | hi
  · rw [outcomeOf, outcomeOf, calls_step_of_noTarget ht, List.getElem?_append_left hi]
  · rw [outcomeOf_of_missing (List.getElem?_eq_none hi)]
    cases hc : (r.step s).calls[i]? with
    | none => exact outcomeOf_of_missing hc
    | some c =>
      rcases getElem?_step_other ht hc with ⟨info, -, -, rfl⟩ | hold
      · rw [outcomeOf_of_getElem? hc]
        rfl
      · rw [List.getElem?_eq_none hi] at hold
        cases hold

/-- A call has none of the records that others have made. -/
lemma recordsOf_of_source {log : List HistoryEvent} (h : ∀ e ∈ log, e.source ≠ some i) :
    recordsOf i log = [] := by
  refine List.filterMap_eq_nil_iff.2 fun e he => ?_
  obtain ⟨source, change⟩ := e
  have hsource : source ≠ some i := h _ he
  unfold HistoryEvent.recordOf
  split
  · next hj =>
    cases hj
    exact if_neg fun hji => hsource (congrArg some hji)
  · rfl

/-- What a step of a call lets it record is what it lacked. -/
lemma recordsOf_step_call (hq : r.tracker.history.Quiet) (hs : s.IsTame) {j : Nat}
    {own : CallStep} (ht : s.target = some (j, own)) {c : Call} (hj : r.calls[j]? = some c)
    (hk : c.entry.kind.IsKnown) (i : Nat) :
    recordsOf i (r.event? s).toList ++ r.outcomeOf i = (r.step s).outcomeOf i := by
  obtain ⟨hcalls, he, -⟩ := step_call hq hs ht hj hk
  have hlt : j < r.calls.length := (List.getElem?_eq_some_iff.1 hj).1
  by_cases hij : j = i
  · subst hij
    have hj' : (r.step s).calls[j]? = some (c.next r.tracker.links own) := by
      rw [hcalls, List.getElem?_set_self hlt]
    rw [outcomeOf_of_getElem? hj, outcomeOf_of_getElem? hj', he]
    cases hend : c.isEnded with
    | true =>
      rw [Call.next_of_ended _ hend, hend]
      rfl
    | false =>
      cases hend' : (c.next r.tracker.links own).isEnded with
      | true => simp [recordsOf, HistoryEvent.recordOf]
      | false => rfl
  · have hnone : recordsOf i (r.event? s).toList = [] := by
      refine recordsOf_of_source fun e hev => ?_
      rw [Option.mem_toList, he] at hev
      split at hev
      · cases hev
        exact fun h => hij (Option.some.inj h)
      · cases hev
    rw [hnone, List.nil_append, outcomeOf, outcomeOf, hcalls, List.getElem?_set_ne hij]

/-- What a step lets a call record is what it lacked. -/
lemma recordsOf_event? (hq : r.tracker.history.Quiet) (hk : ∀ c ∈ r.calls, c.entry.kind.IsKnown)
    (hs : s.IsTame) (i : Nat) :
    recordsOf i (r.event? s).toList ++ r.outcomeOf i = (r.step s).outcomeOf i := by
  cases ht : s.target with
  | none =>
    obtain ⟨hsource, -⟩ := step_other hq hs ht
    have hnone : recordsOf i (r.event? s).toList = [] := by
      refine recordsOf_of_source fun e he => ?_
      rw [hsource e (Option.mem_toList.1 he)]
      simp
    rw [hnone, List.nil_append, outcomeOf_step_other ht]
  | some p =>
    cases hj : r.calls[p.1]? with
    | none =>
      obtain ⟨hstep, he⟩ := step_missing ht hj
      rw [he, hstep]
      rfl
    | some c => exact recordsOf_step_call hq hs ht hj (hk c (List.mem_of_getElem? hj)) i

lemma isKnown_step (hq : r.tracker.history.Quiet) (hk : ∀ c ∈ r.calls, c.entry.kind.IsKnown)
    (hs : s.IsTame) : ∀ c ∈ (r.step s).calls, c.entry.kind.IsKnown := by
  intro c hc
  obtain ⟨i, hi⟩ := List.mem_iff_getElem?.1 hc
  rcases getElem?_step hq hk hs hi with ⟨info, -, -, rfl⟩ | ⟨c₀, hc₀, rfl⟩
  · exact ⟨info.kind, rfl⟩
  · have hk₀ := hk c₀ (List.mem_of_getElem? hc₀)
    cases ho : s.ownOf i with
    | none => exact hk₀
    | some own =>
      exact Call.next_isKnown hk₀ _ (hs.kindIsText (TrackerStep.target_of_ownOf ho))

/-- The tracker after a step. -/
lemma holds_step (hq : r.tracker.history.Quiet) (hk : ∀ c ∈ r.calls, c.entry.kind.IsKnown)
    (hs : s.IsTame) : r.tracker.Holds (r.step s).tracker (r.afterEvent (r.event? s)) := by
  cases ht : s.target with
  | none => exact (step_other hq hs ht).2
  | some p =>
    obtain ⟨j, own⟩ := p
    cases hj : r.calls[j]? with
    | none =>
      obtain ⟨hstep, he⟩ := step_missing ht hj
      rw [he, hstep]
      exact Tracker.Holds.of_history hq rfl rfl
    | some c₀ => exact (step_call hq hs ht hj (hk c₀ (List.mem_of_getElem? hj))).2.2

/-- The call with a position in a run is what its own steps make of it. -/
def Isolated (r₀ : TrackerRun) (ss : List TrackerStep) (i : Nat) (c : Call) : Prop :=
  ∃ before info after, ss = before ++ .start info :: after ∧
    (r₀.steps before).calls.length = i ∧
    c = Call.alone r₀.tracker.links info (r₀.steps before).nextId (r₀.steps before).timestamp
      (ownSteps i after)

/-- What stays true of a run. -/
structure Apart (r₀ : TrackerRun) (ss : List TrackerStep) : Prop where
  tracker : r₀.tracker.Holds (r₀.steps ss).tracker (atMost r₀.tracker.history.maxItems
    (HistoryChange.visible r₀.tracker.history.entries ((r₀.logged ss).map (·.change))))
  known : ∀ c ∈ (r₀.steps ss).calls, c.entry.kind.IsKnown
  isolated : ∀ i c, (r₀.steps ss).calls[i]? = some c → r₀.Isolated ss i c
  records : ∀ i, recordsOf i (r₀.logged ss) = (r₀.steps ss).outcomeOf i

lemma ownSteps_append (i : Nat) (ss : List TrackerStep) (s : TrackerStep) :
    ownSteps i (ss ++ [s]) = ownSteps i ss ++ (s.ownOf i).toList := by
  rw [ownSteps, List.filterMap_append, ownSteps]
  cases ho : s.ownOf i with
  | none => rw [List.filterMap_cons_none ho]; rfl
  | some own => rw [List.filterMap_cons_some ho]; rfl

lemma kindIsText_of_mem_ownSteps {ss : List TrackerStep} (hss : ∀ s ∈ ss, s.IsTame) (i : Nat) :
    ∀ own ∈ ownSteps i ss, own.KindIsText := by
  intro own ho
  obtain ⟨s, hs, hso⟩ := List.mem_filterMap.1 ho
  exact (hss s hs).kindIsText (TrackerStep.target_of_ownOf hso)

variable {r₀ : TrackerRun} {ss : List TrackerStep}

/-- A call that goes on stays isolated. -/
lemma Isolated.append {c : Call} (h : r₀.Isolated ss i c) (hss : ∀ x ∈ ss ++ [s], x.IsTame) :
    r₀.Isolated (ss ++ [s]) i ((s.ownOf i).toList.foldl (Call.next r₀.tracker.links) c) := by
  obtain ⟨before, info, after, rfl, hi, rfl⟩ := h
  refine ⟨before, info, after ++ [s], by simp, hi, ?_⟩
  have hafter : ∀ x ∈ after ++ [s], x.IsTame := by
    intro x hx
    refine hss x ?_
    rw [List.append_assoc, List.cons_append]
    exact List.mem_append_right _ (List.mem_cons_of_mem _ hx)
  rw [Call.alone_eq _ _ _ _ (kindIsText_of_mem_ownSteps hafter i),
    Call.alone_eq _ _ _ _ (kindIsText_of_mem_ownSteps (fun x hx => hafter x (by simp [hx])) i),
    ownSteps_append, List.foldl_append]

lemma apart_nil (hq : r₀.tracker.history.Quiet) (hcalls : r₀.calls = [])
    (hcut : atMost r₀.tracker.history.maxItems r₀.tracker.history.entries
      = r₀.tracker.history.entries) : r₀.Apart [] := by
  have hmissing : ∀ i : Nat, (r₀.steps []).calls[i]? = none := by
    intro i
    rw [steps, List.foldl_nil, hcalls]
    rfl
  refine ⟨?_, ?_, ?_, ?_⟩
  · exact ⟨hcut.symm, rfl, rfl, hq⟩
  · intro c hc
    rw [steps, List.foldl_nil, hcalls] at hc
    cases hc
  · intro i c hc
    rw [hmissing i] at hc
    cases hc
  · intro i
    rw [outcomeOf_of_missing (hmissing i)]
    rfl

/-- What a step keeps of a run. -/
lemma Apart.step (h : r₀.Apart ss) (hm : 0 ≤ r₀.tracker.history.maxItems)
    (hss : ∀ x ∈ ss ++ [s], x.IsTame) : r₀.Apart (ss ++ [s]) := by
  have hq := h.tracker.quiet
  have hs : s.IsTame := hss s (by simp)
  refine ⟨?_, ?_, ?_, ?_⟩
  · have hh := holds_step hq h.known hs
    rw [steps_append, logged_append, List.map_append]
    cases he : (r₀.steps ss).event? s with
    | none =>
      rw [he, afterEvent, h.tracker.entries] at hh
      exact h.tracker.trans hh
    | some event =>
      rw [he, afterEvent, h.tracker.entries, h.tracker.maxItems,
        HistoryChange.apply_visible hm] at hh
      exact h.tracker.trans hh
  · rw [steps_append]
    exact isKnown_step hq h.known hs
  · intro i c hc
    rw [steps_append] at hc
    rcases getElem?_step hq h.known hs hc with ⟨info, rfl, rfl, rfl⟩ | ⟨c₀, hc₀, rfl⟩
    · exact ⟨ss, info, [], rfl, rfl, rfl⟩
    · rw [h.tracker.links]
      exact (h.isolated i c₀ hc₀).append hss
  · intro i
    rw [logged_append, steps_append, recordsOf, List.filterMap_append, ← recordsOf, ← recordsOf,
      h.records i]
    exact recordsOf_event? hq h.known hs i

lemma apart_steps (hq : r₀.tracker.history.Quiet) (hcalls : r₀.calls = [])
    (hm : 0 ≤ r₀.tracker.history.maxItems)
    (hcut : atMost r₀.tracker.history.maxItems r₀.tracker.history.entries
      = r₀.tracker.history.entries) (hss : ∀ s ∈ ss, s.IsTame) : r₀.Apart ss := by
  induction ss using List.reverseRecOn with
  | nil => exact apart_nil hq hcalls hcut
  | append_singleton ss s ih =>
    exact (ih fun x hx => hss x (List.mem_append_left _ hx)).step hm hss

/-- **Calls do not disturb each other.** However the steps of calls follow each other and whatever
else happens in between, each call becomes what its own steps make of it alone and has made one
record if it has ended, none if not; the list in memory is the front of the records made since the
last drop, the newest first, and of what was loaded if nothing was ever dropped. -/
theorem calls_stay_apart (r₀ : TrackerRun) {storage : Storage} {key : String} {maxItems : Int}
    (hload : History.load storage key maxItems = .ok r₀.tracker.history) (hm : 0 ≤ maxItems)
    (hrefusal : ∀ fault, storage.refusal = some fault → History.isAbsorbed fault.kind = true)
    (hcalls : r₀.calls = []) (ss : List TrackerStep) (hss : ∀ s ∈ ss, s.IsTame) :
    (∀ i c, (r₀.steps ss).calls[i]? = some c → r₀.Isolated ss i c) ∧
    (∀ i, recordsOf i (r₀.logged ss) = (r₀.steps ss).outcomeOf i) ∧
    (r₀.steps ss).tracker.history.entries = atMost maxItems
      (HistoryChange.visible r₀.tracker.history.entries ((r₀.logged ss).map (·.change))) := by
  have hq := History.Quiet.of_load hload hrefusal
  obtain ⟨v, -, hr₀⟩ := History.load_eq hload
  have hmax : r₀.tracker.history.maxItems = maxItems := by rw [hr₀]
  have hcut : atMost r₀.tracker.history.maxItems r₀.tracker.history.entries
      = r₀.tracker.history.entries := by
    rw [hr₀]
    exact HistoryChange.atMost_atMost hm _
  have h := apart_steps hq hcalls (by rw [hmax]; exact hm) hcut hss
  refine ⟨h.isolated, h.records, ?_⟩
  rw [h.tracker.entries, hmax]

/-- Two payments, of which the later one fails first, with a drop of the history in between. -/
theorem two_payments_stay_apart :
    let history : History := { storage := { backend := .memory [] } }
    let r₀ : TrackerRun := { tracker := { history, links := ⟨"https://classic", "https://soroban"⟩ }
                             now := ⟨0, 0⟩ }
    let info : TxMeta := ⟨.classic, .withdraw, .xlm, .whole 5, none⟩
    let ss : List TrackerStep := [.start info, .start info, .finishWork 0 (.returned (.plain "ab")),
      .finishWork 1 .cancelled, .clear, .finishConfirmation 0 (.returned ())]
    History.load history.storage history.key history.maxItems = .ok r₀.tracker.history ∧
    (∀ i c, (r₀.steps ss).calls[i]? = some c → r₀.Isolated ss i c) ∧
    (∀ i, recordsOf i (r₀.logged ss) = (r₀.steps ss).outcomeOf i) ∧
    (r₀.steps ss).tracker.history.entries = atMost history.maxItems
      (HistoryChange.visible r₀.tracker.history.entries ((r₀.logged ss).map (·.change))) := by
  intro history r₀ info ss
  have hload : History.load history.storage history.key history.maxItems
      = .ok r₀.tracker.history := rfl
  have hss : ∀ s ∈ ss, s.IsTame := by
    simp [ss, TrackerStep.IsTame, Ending.KindIsText, WorkResult.KindIsText]
  exact ⟨hload, calls_stay_apart r₀ hload (by decide) (by simp [history]) rfl ss hss⟩

end TrackerRun

end StellarWallet
