import StellarWallet.Proofs.History.Recording

/-!
The changes of a history, and the list that they leave.

What is kept after any number of changes is the front of a list that is never cut: the entries added
since the last drop, the newest first, and behind them, if nothing was ever dropped, what was there
at the start.
-/

namespace StellarWallet

/-- A change of the list of entries. -/
inductive HistoryChange where
  | added (e : HistoryEntry)
  | cleared

namespace HistoryChange

/-- What some changes, the newest first, leave of a list when nothing is cut. -/
def visible (loaded : List HistoryEntry) : List HistoryChange → List HistoryEntry
  | [] => loaded
  | .added e :: changes => e :: visible loaded changes
  | .cleared :: _ => []

/-- One change of a list that is cut to a limit. -/
def apply (limit : Int) (entries : List HistoryEntry) : HistoryChange → List HistoryEntry
  | .added e => atMost limit (e :: entries)
  | .cleared => []

variable {limit : Int}

lemma atMost_nil {α : Type} (limit : Int) : atMost limit ([] : List α) = [] := by
  unfold atMost
  split <;> exact List.take_nil

lemma atMost_atMost {α : Type} (h : 0 ≤ limit) (items : List α) :
    atMost limit (atMost limit items) = atMost limit items := by
  rw [atMost_of_nonneg h, atMost_of_nonneg h, List.take_take, Nat.min_self]

/-- To put an item in front of a list that is cut is to cut once. -/
lemma atMost_cons_atMost {α : Type} (h : 0 ≤ limit) (item : α) (items : List α) :
    atMost limit (item :: atMost limit items) = atMost limit (item :: items) := by
  rw [atMost_of_nonneg h, atMost_of_nonneg h, atMost_of_nonneg h]
  cases limit.toNat with
  | zero => rfl
  | succ n =>
    rw [List.take_succ_cons, List.take_succ_cons, List.take_take, Nat.min_eq_left (Nat.le_succ n)]

/-- Cutting after each change leaves what cutting once at the end leaves. -/
lemma apply_visible (h : 0 ≤ limit) (loaded : List HistoryEntry) (changes : List HistoryChange)
    (c : HistoryChange) :
    c.apply limit (atMost limit (visible loaded changes))
      = atMost limit (visible loaded (c :: changes)) := by
  cases c with
  | added e => exact atMost_cons_atMost h e _
  | cleared => exact (atMost_nil limit).symm

end HistoryChange

end StellarWallet
