import StellarWallet.Proofs.Tracker.Interleaving

/-!
A step of a run as acts on its tracker.

What a step makes of a call, and what it does to the tracker, depend on the call, the history and
the links alone: neither toasts nor listeners are ever asked. The tracker after a step is the
tracker after the acts of the step, one after the other.
-/

namespace StellarWallet

/-- What can be done to a tracker. -/
inductive TrackerAct where
  | present (x : Toast)
  | refresh (e : HistoryEntry)
  | dismiss (id : String)
  | commit (e : HistoryEntry)
  | clear
  | subscribe (listener : Listener)
  | unsubscribe (key : Nat)
  | refuse (fault : Option Fault)

/-- Sets what writes of the history are refused with. -/
def History.refuse (h : History) (fault : Option Fault) : History :=
  { h with storage := { h.storage with refusal := fault } }

namespace Tracker

def act (t : Tracker) : TrackerAct → Tracker
  | .present x => t.present x
  | .refresh e => t.refresh e
  | .dismiss id => (t.dismiss id).2
  | .commit e => (t.commit e).2
  | .clear => t.clear.2
  | .subscribe listener => t.subscribe listener
  | .unsubscribe key => t.unsubscribe key
  | .refuse fault => { t with history := t.history.refuse fault }

/-- The tracker after some acts. -/
def acts (t : Tracker) (as : List TrackerAct) : Tracker := as.foldl act t

variable {t : Tracker}

@[simp] lemma acts_nil (t : Tracker) : t.acts [] = t := rfl

@[simp] lemma acts_cons (t : Tracker) (a : TrackerAct) (as : List TrackerAct) :
    t.acts (a :: as) = (t.act a).acts as := rfl

lemma acts_append (t : Tracker) (as bs : List TrackerAct) :
    t.acts (as ++ bs) = (t.acts as).acts bs := List.foldl_append

end Tracker

/-- What becomes of a call in a step, and what the step does to the tracker. -/
structure Turn where
  call : Call
  acts : List TrackerAct := []

namespace Turn

/-- The turn with some acts before its own. -/
def after (turn : Turn) (as : List TrackerAct) : Turn := { turn with acts := as ++ turn.acts }

@[simp] lemma after_call (turn : Turn) (as : List TrackerAct) :
    (turn.after as).call = turn.call := rfl

@[simp] lemma after_acts (turn : Turn) (as : List TrackerAct) :
    (turn.after as).acts = as ++ turn.acts := rfl

/-- What a turn that begins on a tracker leaves. -/
def on (turn : Turn) (t : Tracker) : Call × Tracker := (turn.call, t.acts turn.acts)

lemma on_after (turn : Turn) (as : List TrackerAct) (t : Tracker) :
    (turn.after as).on t = turn.on (t.acts as) := by
  simp only [on, after_call, after_acts, Tracker.acts_append]

end Turn

namespace Call

/-- The acts by which a call ends: its entry is shown, then recorded. -/
def recordActs (e : HistoryEntry) : List TrackerAct := [.refresh e, .commit e]

def moveTurn (c : Call) (phase : TxPhase) : Turn where
  call := c.moved phase
  acts := if c.isEnded ∨ phase < c.phase then [] else [.refresh (c.moved phase).entry]

def leaveTurn (c : Call) : Turn := if c.phase = .signing then c.moveTurn .submitted else ⟨c, []⟩

def failTurn (c : Call) (h : History) (reason : String) (outcome : CallOutcome) : Turn where
  call := c.failed reason (match (h.push (c.failed reason outcome).entry).1 with
    | .ok () => outcome
    | .error fault => .fault fault)
  acts := recordActs (c.failed reason outcome).entry

def raiseTurn (c : Call) (h : History) (fault : Fault) : Turn :=
  c.failTurn h (Reason.ofFault fault) (.fault ⟨.transaction, Reason.ofFault fault⟩)

def submitTurn (c : Call) (h : History) (links : ExplorerLinks) (hash : String) : Turn :=
  let left := (c.hashed hash).leaveTurn
  match links.recordedLink left.call.entry.kind hash with
  | .error fault => (left.call.raiseTurn h fault).after left.acts
  | .ok link =>
    let c := left.call.linked hash link
    ⟨c, left.acts ++ [.refresh c.entry]⟩

def receiveTurn (c : Call) (h : History) (links : ExplorerLinks) (result : WorkResult) : Turn :=
  match result.extract c.entry.kind with
  | .error fault => c.raiseTurn h fault
  | .ok (.text s, kind) =>
    if s = "" then (c.ofKind kind).raiseTurn h noHash else (c.ofKind kind).submitTurn h links s
  | .ok (_, kind) => (c.ofKind kind).raiseTurn h noHash

/-- A confirmed call is recorded as such, and as failed after that if the record comes to a fault
that comes back. -/
def succeedTurn (c : Call) (h : History) (hash : String) : Turn :=
  let done := c.confirmed hash
  let acts := (c.moveTurn .confirmed).acts ++ recordActs done.entry
  match h.push done.entry with
  | (.ok (), _) => ⟨done, acts⟩
  | (.error fault, h) => (done.raiseTurn h fault).after acts

/-- A step of a call, given the history and the links that it meets. -/
def turn (c : Call) (h : History) (links : ExplorerLinks) : CallStep → Turn
  | .setPhase phase => c.moveTurn phase
  | .finishWork ending =>
    match c.stage, ending with
    | .working, .returned result => c.receiveTurn h links result
    | .working, .raised fault => c.raiseTurn h fault
    | .working, .cancelled => c.failTurn h cancelReason .cancelled
    | _, _ => ⟨c, []⟩
  | .finishConfirmation ending =>
    match c.stage, ending with
    | .confirming hash, .returned () => c.succeedTurn h hash
    | .confirming _, .raised fault => c.raiseTurn h fault
    | .confirming _, .cancelled => c.failTurn h cancelReason .cancelled
    | _, _ => ⟨c, []⟩

/-- The turns that there are. -/
lemma turn_cases {P : Turn → Prop} {c : Call} {h : History} {links : ExplorerLinks} {s : CallStep}
    (stay : P ⟨c, []⟩) (move : ∀ phase, P (c.moveTurn phase))
    (fail : ∀ reason outcome, P (c.failTurn h reason outcome))
    (receive : ∀ result, s = .finishWork (.returned result) → P (c.receiveTurn h links result))
    (succeed : ∀ hash, P (c.succeedTurn h hash)) : P (c.turn h links s) := by
  cases s with
  | setPhase phase => exact move phase
  | finishWork ending =>
    unfold turn
    cases c.stage with
    | working =>
      cases ending with
      | returned result => exact receive result rfl
      | raised fault => exact fail _ _
      | cancelled => exact fail _ _
    | confirming hash => exact stay
    | ended outcome => exact stay
  | finishConfirmation ending =>
    unfold turn
    cases c.stage with
    | confirming hash =>
      cases ending with
      | returned a => exact succeed hash
      | raised fault => exact fail _ _
      | cancelled => exact fail _ _
    | working => exact stay
    | ended outcome => exact stay

lemma leaveTurn_call (c : Call) : c.leaveTurn.call = c.leaveSigning := by
  unfold leaveTurn leaveSigning
  split <;> rfl

lemma leaveTurn_isEnded (c : Call) : c.leaveTurn.call.isEnded = c.isEnded := by
  rw [leaveTurn_call, leaveSigning]
  split
  · exact moved_isEnded c .submitted
  · rfl

variable (c : Call) (t : Tracker)

lemma setPhase_eq_turn (phase : TxPhase) : c.setPhase t phase = (c.moveTurn phase).on t := by
  unfold setPhase moveTurn moved
  split <;> rfl

lemma leave_eq_turn : c.leave t = c.leaveTurn.on t := by
  unfold leave leaveTurn
  split
  · exact setPhase_eq_turn c t .submitted
  · rfl

lemma endFailed_eq_turn (reason : String) (outcome : CallOutcome) :
    c.endFailed t reason outcome = (c.failTurn t.history reason outcome).on t := by
  obtain ⟨houtcome, -⟩ := (t.refresh (c.failed reason outcome).entry).commit_eq
    (c.failed reason outcome).entry
  rw [Tracker.refresh_history] at houtcome
  unfold failTurn
  rw [← houtcome]
  rfl

lemma raise_eq_turn (fault : Fault) : c.raise t fault = (c.raiseTurn t.history fault).on t :=
  endFailed_eq_turn c t _ _

lemma submit_eq_turn (hash : String) :
    c.submit t hash = (c.submitTurn t.history t.links hash).on t := by
  obtain ⟨-, hhistory, hlinks⟩ := leave_eq (c.hashed hash) t
  rw [leave_eq_turn] at hhistory hlinks
  rw [submit_eq, leave_eq_turn]
  unfold submitTurn
  generalize (c.hashed hash).leaveTurn = left at hhistory hlinks ⊢
  dsimp only [Turn.on] at hhistory hlinks
  simp only [Turn.on, hlinks]
  cases t.links.recordedLink left.call.entry.kind hash with
  | error fault =>
    have h := raise_eq_turn left.call (t.acts left.acts) fault
    rw [hhistory, ← Turn.on_after] at h
    exact h
  | ok link => simp only [Tracker.acts_append]; rfl

lemma receive_eq_turn (result : WorkResult) :
    c.receive t result = (c.receiveTurn t.history t.links result).on t := by
  unfold receive receiveTurn
  rcases result.extract c.entry.kind with fault | ⟨v, kind⟩
  · exact raise_eq_turn c t fault
  · cases v with
    | text s =>
      dsimp only
      split
      · exact raise_eq_turn _ t noHash
      · exact submit_eq_turn _ t s
    | _ => exact raise_eq_turn _ t noHash

/-- What a call that is confirmed leaves, by what becomes of its record. -/
lemma succeed_cases (hash : String) {shown : Tracker}
    (hshown : shown = (t.acts (c.moveTurn .confirmed).acts).refresh (c.confirmed hash).entry) :
    (∃ t', shown.commit (c.confirmed hash).entry = (.ok (), t') ∧
      c.succeed t hash = (c.confirmed hash, t')) ∨
    ∃ fault t', shown.commit (c.confirmed hash).entry = (.error fault, t') ∧
      c.succeed t hash = (c.confirmed hash).raise t' fault := by
  subst hshown
  simp only [succeed, setPhase_eq_turn, Turn.on]
  split
  · next t' h => exact Or.inl ⟨t', h, rfl⟩
  · next fault t' h => exact Or.inr ⟨fault, t', h, rfl⟩

lemma succeed_eq_turn (hash : String) :
    c.succeed t hash = (c.succeedTurn t.history hash).on t := by
  obtain ⟨-, hhistory, -⟩ := setPhase_eq c t .confirmed
  rw [setPhase_eq_turn] at hhistory
  obtain ⟨shown, hshown⟩ : ∃ shown, shown = (t.acts (c.moveTurn .confirmed).acts).refresh
    (c.confirmed hash).entry := ⟨_, rfl⟩
  have hsame : shown.history = t.history := by rw [hshown, Tracker.refresh_history]; exact hhistory
  have hacts : (shown.commit (c.confirmed hash).entry).2
      = t.acts ((c.moveTurn .confirmed).acts ++ recordActs (c.confirmed hash).entry) := by
    rw [Tracker.acts_append, hshown]
    rfl
  have hpush : t.history.push (c.confirmed hash).entry
      = ((shown.commit (c.confirmed hash).entry).1,
        (shown.commit (c.confirmed hash).entry).2.history) := by
    obtain ⟨houtcome, hpushed⟩ := shown.commit_eq (c.confirmed hash).entry
    rw [houtcome, hpushed, hsame]
  unfold succeedTurn
  dsimp only
  rw [hpush]
  rcases succeed_cases c t hash hshown with ⟨t', hcommit, hs⟩ | ⟨fault, t', hcommit, hs⟩
  · rw [hcommit] at hacts ⊢
    rw [hs, Turn.on, ← hacts]
  · rw [hcommit] at hacts ⊢
    rw [hs, Turn.on_after, ← hacts]
    exact raise_eq_turn _ _ fault

lemma finishWork_eq_turn (ending : Ending WorkResult) :
    c.finishWork t ending = (c.turn t.history t.links (.finishWork ending)).on t := by
  simp only [finishWork, turn]
  cases c.stage with
  | working =>
    cases ending with
    | returned result => exact receive_eq_turn c t result
    | raised fault => exact raise_eq_turn c t fault
    | cancelled => exact endFailed_eq_turn c t _ _
  | confirming hash => rfl
  | ended outcome => rfl

lemma finishConfirmation_eq_turn (ending : Ending Unit) :
    c.finishConfirmation t ending
      = (c.turn t.history t.links (.finishConfirmation ending)).on t := by
  simp only [finishConfirmation, turn]
  cases c.stage with
  | confirming hash =>
    cases ending with
    | returned a => exact succeed_eq_turn c t hash
    | raised fault => exact raise_eq_turn c t fault
    | cancelled => exact endFailed_eq_turn c t _ _
  | working => rfl
  | ended outcome => rfl

/-- A step of a call is its turn, taken on the tracker. -/
theorem step_eq_turn (s : CallStep) : c.step t s = (c.turn t.history t.links s).on t := by
  cases s with
  | setPhase phase => exact setPhase_eq_turn c t phase
  | finishWork ending => exact finishWork_eq_turn c t ending
  | finishConfirmation ending => exact finishConfirmation_eq_turn c t ending

/-- A call that has ended does nothing more. -/
lemma turn_of_ended {c : Call} (h : c.isEnded = true) (history : History) (links : ExplorerLinks)
    (s : CallStep) : c.turn history links s = ⟨c, []⟩ := by
  obtain ⟨outcome, hs⟩ := exists_outcome h
  cases s with
  | setPhase phase => simp [turn, moveTurn, moved, h]
  | finishWork ending => simp [turn, hs]
  | finishConfirmation ending => simp [turn, hs]

end Call

/-- The toast by which a transaction is first shown. -/
def TxMeta.toast (info : TxMeta) (id timestamp : String) : Toast where
  title := (info.title.filter (· ≠ "")).getD Call.defaultTitle
  entry := (Call.pending info id timestamp).entry

namespace TrackerRun

/-- What becomes of a call in its part of a step. -/
def turnOf (r : TrackerRun) (c : Call) (own : CallStep) : Turn :=
  c.turn r.tracker.history r.tracker.links own

/-- What a step does to the tracker. -/
def actsOf (r : TrackerRun) : TrackerStep → List TrackerAct
  | .start info => [.present (info.toast r.nextId r.timestamp)]
  | .dismiss id => [.dismiss id]
  | .append draft => [.commit (draft.entry r.tracker.links r.nextId r.timestamp)]
  | .clear => [.clear]
  | .subscribe listener => [.subscribe listener]
  | .unsubscribe key => [.unsubscribe key]
  | .setClock _ => []
  | .refuseWrites fault => [.refuse fault]
  | s =>
    match s.target with
    | some (i, own) => ((r.calls[i]?).map fun c => (r.turnOf c own).acts).getD []
    | none => []

variable {r : TrackerRun} {s : TrackerStep} {i : Nat} {own : CallStep}

lemma actsOf_of_target (h : s.target = some (i, own)) :
    r.actsOf s = ((r.calls[i]?).map fun c => (r.turnOf c own).acts).getD [] := by
  cases s with
  | setPhase call phase => cases h; rfl
  | finishWork call ending => cases h; rfl
  | finishConfirmation call ending => cases h; rfl
  | _ => cases h

/-- A step of a call that has been started. -/
lemma step_of_call {c : Call} (h : s.target = some (i, own)) (hc : r.calls[i]? = some c) :
    r.step s = { r with
      tracker := r.tracker.acts (r.turnOf c own).acts
      calls := r.calls.set i (r.turnOf c own).call } ∧
    r.actsOf s = (r.turnOf c own).acts := by
  constructor
  · rw [step_of_target h, onCall, hc]
    dsimp only
    rw [Call.step_eq_turn]
    rfl
  · rw [actsOf_of_target h, hc]
    rfl

/-- The call after its step. -/
lemma getElem?_step_of_call {c : Call} (h : s.target = some (i, own)) (hc : r.calls[i]? = some c) :
    (r.step s).calls[i]? = some (r.turnOf c own).call := by
  rw [(step_of_call h hc).1, List.getElem?_set_self (List.getElem?_eq_some_iff.1 hc).1]

/-- A step of a call changes nothing, or the call has not ended. -/
lemma step_call_cases (ht : s.target = some (i, own)) :
    (r.step s = r ∧ r.actsOf s = [] ∧ r.event? s = none) ∨
      ∃ c, r.calls[i]? = some c ∧ c.isEnded = false := by
  cases hi : r.calls[i]? with
  | none =>
    obtain ⟨hstep, hevent⟩ := step_missing ht hi
    refine Or.inl ⟨hstep, ?_, hevent⟩
    rw [actsOf_of_target ht, hi]
    rfl
  | some c =>
    cases he : c.isEnded with
    | false => exact Or.inr ⟨c, rfl, he⟩
    | true =>
      obtain ⟨hstep, hacts⟩ := step_of_call ht hi
      have hturn : r.turnOf c own = ⟨c, []⟩ := Call.turn_of_ended he _ _ own
      obtain ⟨hlt, hget⟩ := List.getElem?_eq_some_iff.1 hi
      rw [hturn] at hstep hacts
      have hsame : r.step s = r := by
        rw [hstep, ← hget, List.set_getElem_self hlt]
        rfl
      refine Or.inl ⟨hsame, hacts, ?_⟩
      rw [event?_of_target ht, callEvent?_eq ht hi (hsame.symm ▸ hi), he]
      rfl

/-- The tracker after a step is the tracker after the acts of the step. -/
theorem step_tracker (r : TrackerRun) (s : TrackerStep) :
    (r.step s).tracker = r.tracker.acts (r.actsOf s) := by
  cases ht : s.target with
  | some p =>
    obtain ⟨i, own⟩ := p
    cases hc : r.calls[i]? with
    | some c =>
      obtain ⟨hstep, hacts⟩ := step_of_call ht hc
      rw [hstep, hacts]
    | none =>
      rw [(step_missing ht hc).1, actsOf_of_target ht, hc]
      rfl
  | none =>
    cases s with
    | setPhase call phase => cases ht
    | finishWork call ending => cases ht
    | finishConfirmation call ending => cases ht
    | _ => rfl

end TrackerRun

end StellarWallet
