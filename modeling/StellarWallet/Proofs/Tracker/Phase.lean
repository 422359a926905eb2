import StellarWallet.Proofs.Tracker.Progress

/-!
The phase of a call is the last of those it was told to move to.

Moves back are ignored, so a sequence of moves ends in the greatest of the phase it began with and
the phases moved to.
-/

namespace StellarWallet

namespace TxPhase

/-- The greatest of some phases. -/
def IsLast (ps : List TxPhase) (p : TxPhase) : Prop := p ∈ ps ∧ ∀ q ∈ ps, q ≤ p

/-- Where a move from `a` to `b` leads. -/
def later (a b : TxPhase) : TxPhase := if b < a then a else b

lemma le_later_left (a b : TxPhase) : a ≤ later a b := by
  cases a <;> cases b <;> decide

lemma le_later_right (a b : TxPhase) : b ≤ later a b := by
  cases a <;> cases b <;> decide

lemma later_eq (a b : TxPhase) : later a b = a ∨ later a b = b := by
  unfold later
  split
  · exact Or.inl rfl
  · exact Or.inr rfl

lemma le_trans {a b c : TxPhase} (h₁ : a ≤ b) (h₂ : b ≤ c) : a ≤ c := Nat.le_trans h₁ h₂

lemma isLast_foldl_later (a : TxPhase) (ps : List TxPhase) :
    IsLast (a :: ps) (ps.foldl later a) := by
  induction ps generalizing a with
  | nil => exact ⟨by simp, by simp; exact Nat.le_refl _⟩
  | cons b r ih =>
    obtain ⟨hm, hle⟩ := ih (later a b)
    rw [List.foldl_cons]
    have hlater : later a b ≤ r.foldl later (later a b) := hle _ (by simp)
    constructor
    · rcases List.mem_cons.1 hm with he | hr
      · rcases later_eq a b with ha | hb
        · rw [he, ha]; simp
        · rw [he, hb]; simp
      · simp [hr]
    · intro q hq
      rcases List.mem_cons.1 hq with rfl | hq
      · exact le_trans (le_later_left q b) hlater
      · rcases List.mem_cons.1 hq with rfl | hq
        · exact le_trans (le_later_right a q) hlater
        · exact hle q (by simp [hq])

end TxPhase

namespace Call

/-- The call in a phase. -/
def atPhase (c : Call) (phase : TxPhase) : Call :=
  { c with entry := { c.entry with phase := some phase }, phase }

/-- The entry shows the phase of the call. -/
def ShowsPhase (c : Call) : Prop := c.entry.phase = some c.phase

variable {c : Call}

lemma atPhase_self (h : c.ShowsPhase) : c.atPhase c.phase = c := by
  unfold atPhase
  rw [← h]

lemma showsPhase_atPhase (c : Call) (phase : TxPhase) : (c.atPhase phase).ShowsPhase := rfl

lemma moved_eq (he : c.isEnded = false) (h : c.ShowsPhase) (phase : TxPhase) :
    c.moved phase = c.atPhase (c.phase.later phase) := by
  unfold moved TxPhase.later
  by_cases hp : phase < c.phase
  · rw [if_pos (Or.inr hp), if_pos hp, atPhase_self h]
  · rw [if_neg (by simp [he, hp]), if_neg hp, atPhase]

lemma leaveSigning_eq (he : c.isEnded = false) (h : c.ShowsPhase) :
    c.leaveSigning = c.atPhase (c.phase.later .submitted) := by
  unfold leaveSigning
  split
  · exact moved_eq he h .submitted
  · next hp =>
    have hl : c.phase.later .submitted = c.phase := by
      cases hc : c.phase <;> simp_all <;> rfl
    rw [hl, atPhase_self h]

/-- A sequence of moves. -/
lemma foldl_moved (he : c.isEnded = false) (h : c.ShowsPhase) (phases : List TxPhase) :
    phases.foldl moved c = c.atPhase (phases.foldl TxPhase.later c.phase) := by
  induction phases generalizing c with
  | nil => exact (atPhase_self h).symm
  | cons p r ih =>
    rw [List.foldl_cons, moved_eq he h, ih (by simpa [isEnded, atPhase] using he)
      (showsPhase_atPhase _ _), List.foldl_cons]
    rfl

end Call

end StellarWallet
