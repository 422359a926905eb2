import StellarWallet.Proofs.History.Persistence
import StellarWallet.Proofs.Storage.Writable

/-!
Histories that can be saved, and histories that cannot.

A history whose entries all have a stored form keeps its slot equal to its list, push by push. An
entry with a foreign kind has no stored form: as long as it stands in the list, every push fails and
writes nothing.
-/

namespace StellarWallet

namespace HistoryEntry

/-- A kind without a name cannot be stored, whatever else is in the list. -/
lemma mapM_toValue_of_foreign {es : List HistoryEntry} {e : HistoryEntry} {v : Value} (he : e ∈ es)
    (hk : e.kind = .foreign v) : es.mapM toValue = .error RecordedKind.unnamed := by
  induction es with
  | nil => cases he
  | cons x r ih =>
    rw [List.mapM_cons]
    -- Every foreign kind fails in the same way, so it does not matter which one comes first.
    cases hx : x.kind with
    | foreign w =>
      have hv : x.toValue = .error RecordedKind.unnamed := by rw [toValue, hx]; rfl
      rw [hv]
      rfl
    | known kind =>
      have hv : x.toValue = .ok (.object (x.fields (Vocabulary.name kind))) := by
        rw [toValue, hx]
        rfl
      rcases List.mem_cons.1 he with rfl | he
      · rw [hx] at hk
        cases hk
      · rw [hv, ok_bind, ih he]
        rfl

end HistoryEntry

namespace History

variable {h : History} {e : HistoryEntry}

/-- Every entry has a stored form that reads back, and the slot can be written. -/
structure IsSavable (h : History) : Prop where
  known : ∀ e ∈ h.entries, e.kind.IsKnown
  plain : ∀ e ∈ h.entries, ReadsBack h.storage.reader e
  writable : h.storage.IsWritable h.key

/-- The entries in the slot are those in memory. -/
def IsMirrored (h : History) : Prop :=
  ∃ v, h.storage.readJson h.key = .ok v ∧ readEntries v = h.entries

lemma IsSavable.quiet (hs : h.IsSavable) : h.Quiet where
  known := hs.known
  refusal := by
    intro fault hf
    rw [hs.writable.1] at hf
    cases hf

lemma IsSavable.save (hs : h.IsSavable) :
    ∃ storage, h.save = (.ok (), { h with storage }) ∧ IsSavable { h with storage } ∧
      IsMirrored { h with storage } := by
  obtain ⟨vs, hvs⟩ := mapM_toValue hs.known
  have hv : h.toValue = .ok (.list vs) := by rw [toValue, hvs]; rfl
  obtain ⟨hok, hread⟩ :=
    hs.writable.writeJson_eq_ok (isPlain_of_readsBack hs.plain hvs)
  have hwrite : h.write
      = (.ok (), { h with storage := (h.storage.writeJson h.key (.list vs)).2 }) := by
    rw [← hok]
    simp only [write, hv]
  refine ⟨_, (save_of_write (by rw [hwrite])).trans hwrite,
    ⟨hs.known, ?_, hs.writable.writeJson _⟩, .list vs, hread, HistoryEntry.readEntries_of_mapM hvs⟩
  rw [Storage.reader_writeJson]
  exact hs.plain

/-- What a push leaves of a history that can be saved can be saved, and has been. -/
lemma IsSavable.push (hs : h.IsSavable) (hk : e.kind.IsKnown)
    (hp : ReadsBack h.storage.reader e) :
    (h.push e).1 = .ok () ∧ (h.push e).2.entries = h.record e ∧
      (h.push e).2.maxItems = h.maxItems ∧ (h.push e).2.IsSavable ∧ (h.push e).2.IsMirrored := by
  have hs' : IsSavable { h with entries := h.record e } := by
    refine ⟨?_, ?_, hs.writable⟩
    · intro x hx
      rcases List.mem_cons.1 ((atMost_sublist _ _).subset hx) with rfl | hx
      · exact hk
      · exact hs.known x hx
    · intro x hx
      rcases List.mem_cons.1 ((atMost_sublist _ _).subset hx) with rfl | hx
      · exact hp
      · exact hs.plain x hx
  obtain ⟨storage, hsave, hsavable, hmirrored⟩ := hs'.save
  have hpush : h.push e = (.ok (), { h with entries := h.record e, storage }) := hsave
  rw [hpush]
  exact ⟨rfl, rfl, rfl, hsavable, hmirrored⟩

/-! ### Foreign kinds -/

lemma push_of_foreign {x : HistoryEntry} {v : Value} (hx : x ∈ h.record e)
    (hk : x.kind = .foreign v) :
    h.push e = (.error RecordedKind.unnamed, { h with entries := h.record e }) := by
  have hvalue : toValue { h with entries := h.record e } = .error RecordedKind.unnamed := by
    rw [toValue, HistoryEntry.mapM_toValue_of_foreign hx hk]
    rfl
  change save { h with entries := h.record e } = _
  rw [save, write, hvalue]
  rfl

lemma getElem?_record_zero (hm : 0 < h.maxItems) (e : HistoryEntry) :
    (h.record e)[0]? = some e := by
  rw [record, atMost_of_nonneg (by omega), List.getElem?_take_of_lt (by omega),
    List.getElem?_cons_zero]

/-- There is an entry with a foreign kind in a position. -/
def IsBlocked (h : History) (i : Nat) : Prop := ∃ e v, h.entries[i]? = some e ∧ e.kind = .foreign v

/-- A push moves a foreign entry on; as long as it is kept, nothing is written. -/
lemma IsBlocked.push {i : Nat} (hb : h.IsBlocked i) (hi : (i : Int) + 1 < h.maxItems)
    (e : HistoryEntry) :
    h.push e = (.error RecordedKind.unnamed, { h with entries := h.record e }) ∧
      IsBlocked { h with entries := h.record e } (i + 1) := by
  obtain ⟨x, v, hx, hk⟩ := hb
  have hrecord : (h.record e)[i + 1]? = some x := by
    rw [record, atMost_of_nonneg (by omega), List.getElem?_take_of_lt (by omega),
      List.getElem?_cons_succ]
    exact hx
  exact ⟨push_of_foreign (List.mem_of_getElem? hrecord) hk, x, v, hrecord, hk⟩

end History

end StellarWallet
