import StellarWallet.Proofs.Tracker.Phase
import StellarWallet.Proofs.Tracker.Turns

/-!
What the turn of a call lets its toast show.

A turn shows entries of its own call only, in phases that do not go back, and shows the entry that
the call is left with last. A call that ends by it is left with the entry that was recorded last.
-/

namespace StellarWallet

/-- If one phase is shown then so is the other, which is not before it. -/
def TxPhase.Reaches (p q : Option TxPhase) : Prop := ∀ a, p = some a → ∃ b, q = some b ∧ a ≤ b

lemma TxPhase.Reaches.refl (p : Option TxPhase) : Reaches p p :=
  fun a h => ⟨a, h, Nat.le_refl _⟩

lemma TxPhase.Reaches.trans {p q u : Option TxPhase} (h : Reaches p q) (h' : Reaches q u) :
    Reaches p u := by
  intro a ha
  obtain ⟨b, hb, hab⟩ := h a ha
  obtain ⟨c, hc, hbc⟩ := h' b hb
  exact ⟨c, hc, TxPhase.le_trans hab hbc⟩

namespace TrackerAct

/-- The entry that an act records. -/
def record? : TrackerAct → Option HistoryEntry
  | .commit e => some e
  | _ => none

/-- The entry on show after some acts, when `e` was before. -/
def lastShown (e : HistoryEntry) (as : List TrackerAct) : HistoryEntry :=
  as.foldl (fun e a => match a with
    | .refresh e' => e'
    | _ => e) e

lemma lastShown_append (e : HistoryEntry) (as bs : List TrackerAct) :
    lastShown e (as ++ bs) = lastShown (lastShown e as) bs := List.foldl_append

/-- What is on show after the acts does not depend on what was before. -/
def Overwrites (as : List TrackerAct) : Prop := ∀ e e', lastShown e as = lastShown e' as

lemma Overwrites.after {bs : List TrackerAct} (h : Overwrites bs) (as : List TrackerAct) :
    Overwrites (as ++ bs) := by
  intro e e'
  rw [lastShown_append, lastShown_append]
  exact h _ _

/-- Acts that only record entries and show them under an identifier, from a phase on. -/
inductive Plays (id : String) : Option TxPhase → List TrackerAct → Prop where
  | nil (phase : Option TxPhase) : Plays id phase []
  | refresh {phase : Option TxPhase} {e : HistoryEntry} {as : List TrackerAct} (hid : e.id = id)
      (hphase : TxPhase.Reaches phase e.phase) (h : Plays id e.phase as) :
      Plays id phase (.refresh e :: as)
  | commit {phase : Option TxPhase} {e : HistoryEntry} {as : List TrackerAct}
      (h : Plays id phase as) : Plays id phase (.commit e :: as)

variable {id : String} {as bs : List TrackerAct}

lemma Plays.append {e : HistoryEntry} (h : Plays id e.phase as)
    (h' : Plays id (lastShown e as).phase bs) : Plays id e.phase (as ++ bs) := by
  generalize hp : e.phase = p at h
  induction h generalizing e with
  | nil phase => exact hp ▸ h'
  | refresh hid hphase _ ih => exact .refresh hid hphase (ih h' rfl)
  | commit _ ih => exact .commit (ih h' hp)

end TrackerAct

namespace Call

/-- The entry shows the phase of the call, and is pending as long as the call has not ended. -/
structure Coherent (c : Call) : Prop where
  phase : c.ShowsPhase
  status : c.entry.status = .pending ↔ c.isEnded = false

lemma coherent_pending (info : TxMeta) (id timestamp : String) :
    (pending info id timestamp).Coherent := ⟨rfl, ⟨fun _ => rfl, fun _ => rfl⟩⟩

end Call

open TrackerAct

/-- What a turn owes to its call. -/
structure Turn.Suits (turn : Turn) (c : Call) : Prop where
  coherent : turn.call.Coherent
  id : turn.call.entry.id = c.entry.id
  plays : Plays c.entry.id c.entry.phase turn.acts
  shown : lastShown c.entry turn.acts = turn.call.entry
  records : (turn.acts.filterMap record?).getLast?
    = if turn.call.isEnded then some turn.call.entry else none

namespace Turn

variable {turn turn' : Turn} {c c' : Call}

/-- A turn that shows something suits any call of the same identifier in the same phase. -/
lemma Suits.of_same (h : turn.Suits c) (ho : Overwrites turn.acts)
    (hid : c'.entry.id = c.entry.id) (hphase : c'.entry.phase = c.entry.phase) :
    turn.Suits c' where
  coherent := h.coherent
  id := h.id.trans hid.symm
  plays := by
    rw [hid, hphase]
    exact h.plays
  shown := (ho _ _).trans h.shown
  records := h.records

/-- A turn after the acts of another, which has not ended the call unless this one does too. -/
lemma Suits.after (h : turn.Suits c) (h' : turn'.Suits turn.call)
    (hended : turn.call.isEnded = true → turn'.call.isEnded = true) :
    (turn'.after turn.acts).Suits c where
  coherent := h'.coherent
  id := h'.id.trans h.id
  plays := by
    refine h.plays.append ?_
    rw [h.shown, ← h.id]
    exact h'.plays
  shown := by rw [after_acts, lastShown_append, h.shown, h'.shown, after_call]
  records := by
    rw [after_acts, after_call, List.filterMap_append, List.getLast?_append, h.records, h'.records]
    by_cases hturn' : turn'.call.isEnded = true
    · rw [if_pos hturn', Option.some_or]
    · rw [if_neg hturn', if_neg fun hturn => hturn' (hended hturn), Option.none_or]

end Turn

namespace Call

variable {c : Call} (h : History)

lemma suits_stay (hc : c.Coherent) (he : c.isEnded = false) : Turn.Suits ⟨c, []⟩ c :=
  ⟨hc, rfl, .nil _, rfl, by simp [he]⟩

lemma suits_moveTurn (hc : c.Coherent) (he : c.isEnded = false) (phase : TxPhase) :
    (c.moveTurn phase).Suits c := by
  unfold moveTurn
  by_cases hback : c.isEnded ∨ phase < c.phase
  · have hsame : c.moved phase = c := if_pos hback
    rw [if_pos hback, hsame]
    exact suits_stay hc he
  · have hmoved : c.moved phase = c.atPhase phase := if_neg hback
    rw [if_neg hback, hmoved]
    refine ⟨⟨rfl, hc.status⟩, rfl, .refresh rfl ?_ (.nil _), rfl, ?_⟩
    · intro a ha
      rw [hc.phase, Option.some.injEq] at ha
      have hle : ¬phase.rank < c.phase.rank := fun hlt => hback (Or.inr hlt)
      exact ⟨phase, rfl, ha ▸ Nat.le_of_not_lt hle⟩
    · change none = if c.isEnded = true then _ else none
      rw [he]
      rfl

lemma suits_failTurn (hc : c.Coherent) (reason : String) (outcome : CallOutcome) :
    (c.failTurn h reason outcome).Suits c where
  coherent := ⟨hc.phase, ⟨nofun, nofun⟩⟩
  id := rfl
  plays := .refresh rfl (TxPhase.Reaches.refl _) (.commit (.nil _))
  shown := rfl
  records := rfl

lemma suits_leaveTurn (hc : c.Coherent) (he : c.isEnded = false) : c.leaveTurn.Suits c := by
  unfold leaveTurn
  split
  · exact suits_moveTurn hc he .submitted
  · exact suits_stay hc he

lemma suits_linked {hash link : String} (hc : c.Coherent) (he : c.isEnded = false) :
    Turn.Suits ⟨c.linked hash link, [.refresh (c.linked hash link).entry]⟩ c where
  coherent := ⟨hc.phase, ⟨fun _ => rfl, fun _ => hc.status.2 he⟩⟩
  id := rfl
  plays := .refresh rfl (TxPhase.Reaches.refl _) (.nil _)
  shown := rfl
  records := rfl

lemma suits_submitTurn (links : ExplorerLinks) (hash : String) (hc : c.Coherent)
    (he : c.isEnded = false) :
    (c.submitTurn h links hash).Suits (c.hashed hash) ∧
      Overwrites (c.submitTurn h links hash).acts := by
  have hleft : (c.hashed hash).leaveTurn.Suits (c.hashed hash) :=
    suits_leaveTurn ⟨hc.phase, hc.status⟩ he
  have hgoes := (c.hashed hash).leaveTurn_isEnded.trans he
  unfold submitTurn
  generalize (c.hashed hash).leaveTurn = left at hleft hgoes ⊢
  dsimp only
  cases links.recordedLink left.call.entry.kind hash with
  | error fault =>
    have hraise : (left.call.raiseTurn h fault).Suits left.call :=
      suits_failTurn h hleft.coherent _ _
    have ho : Overwrites (left.call.raiseTurn h fault).acts := fun _ _ => rfl
    exact ⟨hleft.after hraise fun _ => rfl, ho.after _⟩
  | ok link =>
    have hgoes' : left.call.isEnded = true → (left.call.linked hash link).isEnded = true := by
      rw [hgoes]
      exact nofun
    have ho : Overwrites [.refresh (left.call.linked hash link).entry] := fun _ _ => rfl
    exact ⟨hleft.after (suits_linked hleft.coherent hgoes) hgoes', ho.after _⟩

lemma suits_receiveTurn (links : ExplorerLinks) (result : WorkResult) (hc : c.Coherent)
    (he : c.isEnded = false) : (c.receiveTurn h links result).Suits c := by
  have hkind : ∀ kind, (c.ofKind kind).Coherent := fun kind => ⟨hc.phase, hc.status⟩
  have hraise : ∀ kind, ((c.ofKind kind).raiseTurn h noHash).Suits c := fun kind =>
    (suits_failTurn h (hkind kind) _ _).of_same (fun _ _ => rfl) rfl rfl
  unfold receiveTurn
  rcases result.extract c.entry.kind with fault | ⟨v, kind⟩
  · exact suits_failTurn h hc _ _
  · cases v with
    | text s =>
      dsimp only
      split
      · exact hraise kind
      · obtain ⟨hsubmit, ho⟩ := suits_submitTurn h links s (hkind kind) he
        exact hsubmit.of_same ho rfl rfl
    | _ => exact hraise kind

lemma suits_succeedTurn (hash : String) (hc : c.Coherent) (he : c.isEnded = false) :
    (c.succeedTurn h hash).Suits c := by
  have hmove := suits_moveTurn hc he .confirmed
  have hgoes : (c.moveTurn .confirmed).call.isEnded = true → (c.confirmed hash).isEnded = true :=
    fun _ => rfl
  have hrecord : Turn.Suits ⟨c.confirmed hash, recordActs (c.confirmed hash).entry⟩
      (c.moveTurn .confirmed).call := by
    refine ⟨⟨hmove.coherent.phase, ⟨nofun, nofun⟩⟩, rfl, ?_, rfl, rfl⟩
    exact .refresh rfl (TxPhase.Reaches.refl _) (.commit (.nil _))
  have hdone := hmove.after hrecord hgoes
  unfold succeedTurn
  dsimp only
  rcases h.push (c.confirmed hash).entry with ⟨fault | a, h'⟩
  · exact hdone.after (suits_failTurn h' hdone.coherent _ _) fun _ => rfl
  · exact hdone

/-- What a turn of a call that has not ended does suits the call. -/
theorem suits_turn (links : ExplorerLinks) (s : CallStep) (hc : c.Coherent)
    (he : c.isEnded = false) : (c.turn h links s).Suits c := by
  refine turn_cases (P := (·.Suits c)) (suits_stay hc he) ?_ ?_ ?_ ?_
  · exact suits_moveTurn hc he
  · exact suits_failTurn h hc
  · exact fun result _ => suits_receiveTurn h links result hc he
  · exact fun hash => suits_succeedTurn h hash hc he

end Call

end StellarWallet
