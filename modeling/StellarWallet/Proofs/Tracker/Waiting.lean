import StellarWallet.Proofs.Confirmation.FirstDecision
import StellarWallet.Proofs.Tracker.Turns

/-!
Runs whose calls wait for the ledgers.

A call that waits for its confirmation asks one question at a time; between its questions anything
else may happen to the tracker, questions of other calls included. When nothing else happens, asking
until the call has ended comes to what waiting for the confirmation comes to.
-/

namespace StellarWallet

namespace WalletSettings

open Confirmation

variable (s : WalletSettings) (hash : String) (kind : TxKind)

/-- Asks a ledger once. -/
def ask : Nat → Net Fault Verdict :=
  match kind with
  | .classic => s.askClassic hash
  | .soroban => s.askSoroban hash

/-- Asks once more, if that is allowed, and notes or pauses as the verdict demands; the answer is
whether the transaction is confirmed. -/
def inquire (asked : Nat) : Net Fault Bool :=
  if s.questions kind ≤ asked then Net.fail (confirmationTimeout kind)
  else do
    match ← s.ask hash kind asked with
    | .confirmed =>
      Net.note part .info ("Transaction " ++ hash ++ " confirmed (" ++ Vocabulary.name kind ++ ")")
      return true
    | .failed message => Net.fail (Confirmation.fault message)
    | .undecided pause =>
      Net.pause pause
      return false

/-- Asks on when some questions have been asked. -/
def pursue (asked : Nat) : Net Fault Unit := do
  poll (s.ask hash kind) (confirmationTimeout kind) (s.questions kind - asked) asked
  Net.note part .info ("Transaction " ++ hash ++ " confirmed (" ++ Vocabulary.name kind ++ ")")

lemma confirm_eq_pursue : s.confirm hash kind = s.pursue hash kind 0 := by
  cases kind <;> rfl

/-- To ask on is to ask once, and then, if nothing is decided, to ask on. -/
lemma pursue_eq (asked : Nat) (host : Host) (j : Journal) :
    s.pursue hash kind asked host j = match s.inquire hash kind asked host j with
      | (.ok true, j) => (.ok (), j)
      | (.ok false, j) => s.pursue hash kind (asked + 1) host j
      | (.error fault, j) => (.error fault, j) := by
  by_cases hleft : s.questions kind ≤ asked
  · rw [pursue, inquire, if_pos hleft, Nat.sub_eq_zero_of_le hleft]
    rfl
  · obtain ⟨left, hl⟩ : ∃ left, s.questions kind - asked = left + 1 :=
      ⟨s.questions kind - asked - 1, by omega⟩
    have hnext : s.questions kind - (asked + 1) = left := by omega
    rw [pursue, pursue, inquire, if_neg hleft, hl, hnext]
    rcases hask : s.ask hash kind asked host j with ⟨fault | verdict, j'⟩
    · have hpoll : poll (s.ask hash kind) (confirmationTimeout kind) (left + 1) asked host j
          = (.error fault, j') := Net.bind_of_error hask
      rw [Net.bind_of_error hpoll, Net.bind_of_error hask]
    · rw [Net.bind_of_ok hask]
      cases verdict with
      | confirmed =>
        have hpoll : poll (s.ask hash kind) (confirmationTimeout kind) (left + 1) asked host j
            = (.ok (), j') := Net.bind_of_ok hask
        rw [Net.bind_of_ok hpoll]
        rfl
      | failed message =>
        have hpoll : poll (s.ask hash kind) (confirmationTimeout kind) (left + 1) asked host j
            = (.error (Confirmation.fault message), j') := Net.bind_of_ok hask
        rw [Net.bind_of_error hpoll]
        rfl
      | undecided pause =>
        have hpoll : poll (s.ask hash kind) (confirmationTimeout kind) (left + 1) asked host j
            = poll (s.ask hash kind) (confirmationTimeout kind) left (asked + 1) host
              (j' ++ [.slept pause]) := Net.bind_of_ok hask
        change Net.bind _ _ host j = Net.bind _ _ host (j' ++ [.slept pause])
        rw [Net.bind, Net.bind, hpoll]

end WalletSettings

/-- A run with the questions that its calls ask. -/
structure LiveRun where
  run : TrackerRun
  journal : Journal := []
  /-- How often each call has asked. -/
  asked : Nat → Nat := fun _ => 0

inductive LiveStep where
  /-- A step of the run, an end of a wait that no ledger decides included. -/
  | track (s : TrackerStep)
  /-- A call that waits asks once more. -/
  | ask (call : Nat)

namespace LiveRun

open WalletSettings

section

variable (s : WalletSettings) (host : Host)

/-- What comes of the next question of a call, if it waits for its confirmation. -/
def answer? (r : LiveRun) (i : Nat) : Option (Except Fault Bool × Journal) := do
  let c ← r.run.calls[i]?
  match c.stage, c.entry.kind with
  | .confirming hash, .known kind => some (s.inquire hash kind (r.asked i) host r.journal)
  | _, _ => none

/-- What a step is for the run: a wait ends with the question that decides it. -/
def move? (r : LiveRun) : LiveStep → Option TrackerStep
  | .track step => some step
  | .ask i =>
    match r.answer? s host i with
    | some (.ok true, _) => some (.finishConfirmation i (.returned ()))
    | some (.error fault, _) => some (.finishConfirmation i (.raised fault))
    | _ => none

def step (r : LiveRun) (x : LiveStep) : LiveRun where
  run := r.run.steps (r.move? s host x).toList
  journal :=
    match x with
    | .track _ => r.journal
    | .ask i => ((r.answer? s host i).map (·.2)).getD r.journal
  asked :=
    match x with
    | .track _ => r.asked
    | .ask i => fun k => if k = i then r.asked k + 1 else r.asked k

def steps (r : LiveRun) (xs : List LiveStep) : LiveRun := xs.foldl (step s host) r

/-- The steps of the run that the steps of a live run are. -/
def moves (r : LiveRun) : List LiveStep → List TrackerStep
  | [] => []
  | x :: xs => (r.move? s host x).toList ++ (r.step s host x).moves xs

end

variable (s : WalletSettings) (host : Host) {r : LiveRun}

/-- What happens to the tracker in a live run is what happens to it in the run of its moves. -/
lemma run_steps (r : LiveRun) (xs : List LiveStep) :
    (r.steps s host xs).run = r.run.steps (r.moves s host xs) := by
  induction xs generalizing r with
  | nil => rfl
  | cons x xs ih =>
    rw [steps, List.foldl_cons, ← steps, ih, moves, TrackerRun.steps, TrackerRun.steps,
      List.foldl_append]
    rfl

/-- How a wait ends. -/
def endingOf : Except Fault Unit → Ending Unit
  | .ok () => .returned ()
  | .error fault => .raised fault

/-- Nothing is asked for a call that does not wait. -/
lemma step_ask_of_ended {i : Nat} {c : Call} (hi : r.run.calls[i]? = some c)
    (he : c.isEnded = true) :
    (r.step s host (.ask i)).run = r.run ∧ (r.step s host (.ask i)).journal = r.journal := by
  obtain ⟨outcome, hs⟩ := Call.exists_outcome he
  have hanswer : r.answer? s host i = none := by
    simp only [answer?, hi, hs, Option.bind_eq_bind, Option.bind_some]
  refine ⟨?_, ?_⟩
  · rw [step, move?, hanswer]
    rfl
  · rw [step]
    dsimp only
    rw [hanswer]
    rfl

lemma steps_ask_of_ended {i : Nat} {c : Call} (hi : r.run.calls[i]? = some c)
    (he : c.isEnded = true) (n : Nat) :
    (r.steps s host (List.replicate n (.ask i))).run = r.run ∧
      (r.steps s host (List.replicate n (.ask i))).journal = r.journal := by
  induction n generalizing r with
  | zero => exact ⟨rfl, rfl⟩
  | succ n ih =>
    obtain ⟨hrun, hjournal⟩ := step_ask_of_ended s host hi he
    obtain ⟨hrun', hjournal'⟩ := ih (r := r.step s host (.ask i)) (by rw [hrun]; exact hi)
    exact ⟨hrun'.trans hrun, hjournal'.trans hjournal⟩

/-- A wait that ends ends the call. -/
lemma isEnded_of_finishConfirmation {r : TrackerRun} {i : Nat} {c : Call} {hash : String}
    (hi : r.calls[i]? = some c) (hs : c.stage = .confirming hash) (ending : Ending Unit) :
    ∃ c', (r.step (.finishConfirmation i ending)).calls[i]? = some c' ∧ c'.isEnded = true := by
  refine ⟨_, TrackerRun.getElem?_step_of_call rfl hi, ?_⟩
  simp only [TrackerRun.turnOf, Call.turn, hs]
  cases ending with
  | returned a =>
    simp only [Call.succeedTurn]
    split <;> rfl
  | raised fault => rfl
  | cancelled => rfl

section

variable {i : Nat} {c : Call} {hash : String} {kind : TxKind}

lemma answer?_of_confirming (hi : r.run.calls[i]? = some c) (hs : c.stage = .confirming hash)
    (hk : c.entry.kind = .known kind) :
    r.answer? s host i = some (s.inquire hash kind (r.asked i) host r.journal) := by
  simp only [answer?, hi, hs, hk, Option.bind_eq_bind, Option.bind_some]

/-- The journal goes on with what has been asked. -/
lemma journal_step_ask {answer : Except Fault Bool} {j : Journal}
    (hanswer : r.answer? s host i = some (answer, j)) :
    (r.step s host (.ask i)).journal = j := by
  rw [step]
  dsimp only
  rw [hanswer]
  rfl

/-- Asking when the next answer ends the wait. -/
lemma steps_ask_of_decided (result : Except Fault Unit) {j : Journal}
    (hi : r.run.calls[i]? = some c) (hs : c.stage = .confirming hash)
    (hmove : r.move? s host (.ask i) = some (.finishConfirmation i (endingOf result)))
    (hjournal : (r.step s host (.ask i)).journal = j) (n : Nat) :
    (r.steps s host (List.replicate (n + 1) (.ask i))).run
        = r.run.step (.finishConfirmation i (endingOf result)) ∧
      (r.steps s host (List.replicate (n + 1) (.ask i))).journal = j := by
  have hrun : (r.step s host (.ask i)).run
      = r.run.step (.finishConfirmation i (endingOf result)) := by
    rw [step, hmove]
    rfl
  obtain ⟨c', hc', he⟩ := isEnded_of_finishConfirmation hi hs (endingOf result)
  obtain ⟨hrun', hjournal'⟩ := steps_ask_of_ended s host (r := r.step s host (.ask i))
    (by rw [hrun]; exact hc') he n
  exact ⟨hrun'.trans hrun, hjournal'.trans hjournal⟩

/-- The next answer ends the wait, or leaves a question to ask. -/
lemma steps_ask_cases (hi : r.run.calls[i]? = some c) (hs : c.stage = .confirming hash)
    (hk : c.entry.kind = .known kind) :
    (∀ n, (r.steps s host (List.replicate (n + 1) (.ask i))).run
        = r.run.step (.finishConfirmation i
          (endingOf (s.pursue hash kind (r.asked i) host r.journal).1)) ∧
      (r.steps s host (List.replicate (n + 1) (.ask i))).journal
        = (s.pursue hash kind (r.asked i) host r.journal).2) ∨
    ∃ j, s.inquire hash kind (r.asked i) host r.journal = (.ok false, j) := by
  have hanswer := answer?_of_confirming s host hi hs hk
  rw [pursue_eq]
  rcases hask : s.inquire hash kind (r.asked i) host r.journal with ⟨fault | confirmed, j⟩
  · rw [hask] at hanswer
    have hmove : r.move? s host (.ask i)
        = some (.finishConfirmation i (endingOf (.error fault))) := by rw [move?, hanswer]; rfl
    exact Or.inl (steps_ask_of_decided s host (.error fault) hi hs hmove
      (journal_step_ask s host hanswer))
  · rw [hask] at hanswer
    cases confirmed with
    | true =>
      have hmove : r.move? s host (.ask i)
          = some (.finishConfirmation i (endingOf (.ok ()))) := by rw [move?, hanswer]; rfl
      exact Or.inl (steps_ask_of_decided s host (.ok ()) hi hs hmove
        (journal_step_ask s host hanswer))
    | false => exact Or.inr ⟨j, rfl⟩

/-- Asking until the call has ended, when nothing else happens. -/
lemma steps_ask_eq_pursue (hi : r.run.calls[i]? = some c) (hs : c.stage = .confirming hash)
    (hk : c.entry.kind = .known kind) (left : Nat) (hleft : s.questions kind - r.asked i = left) :
    (r.steps s host (List.replicate (left + 1) (.ask i))).run
        = r.run.step (.finishConfirmation i
          (endingOf (s.pursue hash kind (r.asked i) host r.journal).1)) ∧
      (r.steps s host (List.replicate (left + 1) (.ask i))).journal
        = (s.pursue hash kind (r.asked i) host r.journal).2 := by
  induction left generalizing r with
  | zero =>
    rcases steps_ask_cases s host hi hs hk with hdecided | ⟨j, hask⟩
    · exact hdecided 0
    · rw [inquire, if_pos (by omega)] at hask
      cases hask
  | succ left ih =>
    rcases steps_ask_cases s host hi hs hk with hdecided | ⟨j, hask⟩
    · exact hdecided (left + 1)
    · have hanswer := answer?_of_confirming s host hi hs hk
      rw [hask] at hanswer
      have hstep : r.step s host (.ask i) = { r with
          journal := j
          asked := fun k => if k = i then r.asked k + 1 else r.asked k } := by
        simp only [step, move?, hanswer, Option.toList_none, Option.map_some, Option.getD_some]
        rfl
      have hasked : (r.step s host (.ask i)).asked i = r.asked i + 1 := by
        rw [hstep]
        exact if_pos rfl
      obtain ⟨hrun, hjournal⟩ := ih (r := r.step s host (.ask i)) (by rw [hstep]; exact hi)
        (by rw [hasked]; omega)
      rw [hasked] at hrun hjournal
      rw [pursue_eq, hask]
      rw [hstep] at hrun hjournal
      rw [List.replicate_succ, steps, List.foldl_cons, hstep]
      exact ⟨hrun, hjournal⟩

/-- **Asking to the end is waiting.** When a call that waits has not asked yet and nothing else
happens, asking until it has ended leaves the run and the journal that waiting for its confirmation
leaves. -/
theorem steps_ask_eq_confirm (hi : r.run.calls[i]? = some c) (hs : c.stage = .confirming hash)
    (hk : c.entry.kind = .known kind) (hasked : r.asked i = 0) :
    (r.steps s host (List.replicate (s.questions kind + 1) (.ask i))).run
        = r.run.step (.finishConfirmation i (endingOf (s.confirm hash kind host r.journal).1)) ∧
      (r.steps s host (List.replicate (s.questions kind + 1) (.ask i))).journal
        = (s.confirm hash kind host r.journal).2 := by
  have h := steps_ask_eq_pursue s host hi hs hk (s.questions kind)
    (by rw [hasked]; rfl)
  rwa [hasked, ← confirm_eq_pursue] at h

end

end LiveRun

end StellarWallet
