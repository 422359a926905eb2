import StellarWallet.History.Basic
import StellarWallet.Proofs.Storage.Refusal

/-!
Recording on a history whose failing writes are only noted.

On a quiet history a record always ends up in front of the list in memory, whatever becomes of the
write, and the history stays quiet.
-/

namespace StellarWallet

/-- The kind is one of the vocabulary, so that it has a name to store. -/
def RecordedKind.IsKnown (k : RecordedKind) : Prop := ∃ kind, k = .known kind

namespace HistoryEntry

variable {fields : List (String × Value)} {e : HistoryEntry}

lemma lookup_of_readAmount {v : Value} {amount : Number} (hv : need fields "amount" = .ok v)
    (h : readAmount v = .ok amount) : Fields.lookup "amount" fields = some (.number amount) := by
  unfold need at hv
  split at hv
  · next w hw =>
    cases hv
    unfold readAmount at h
    split at h
    · cases h
      exact hw
    · cases h
  · cases hv

/-- Where the parts of an entry were read: its kind is one of the vocabulary, its amount was there,
and what was missing of the others reads as null. -/
lemma ofFields_eq_ok (h : ofFields fields = .ok e) :
    e.kind.IsKnown ∧ Fields.lookup "amount" fields = some (.number e.amount) ∧
      e.hash = (Fields.lookup "hash" fields).getD .null ∧
      e.link = (Fields.lookup "explorerUrl" fields).getD .null ∧
      e.reason = (Fields.lookup "reason" fields).getD .null := by
  unfold ofFields at h
  obtain ⟨v, hv, h⟩ := bind_eq_ok h
  obtain ⟨amount, hamount, h⟩ := bind_eq_ok h
  obtain ⟨id, -, h⟩ := bind_eq_ok h
  obtain ⟨_, -, h⟩ := bind_eq_ok h
  obtain ⟨kind, -, h⟩ := bind_eq_ok h
  obtain ⟨_, -, h⟩ := bind_eq_ok h
  obtain ⟨direction, -, h⟩ := bind_eq_ok h
  obtain ⟨_, -, h⟩ := bind_eq_ok h
  obtain ⟨asset, -, h⟩ := bind_eq_ok h
  obtain ⟨_, -, h⟩ := bind_eq_ok h
  obtain ⟨status, -, h⟩ := bind_eq_ok h
  obtain ⟨timestamp, -, h⟩ := bind_eq_ok h
  obtain ⟨phase, -, h⟩ := bind_eq_ok h
  cases h
  exact ⟨⟨kind, rfl⟩, lookup_of_readAmount hv hamount, rfl, rfl, rfl⟩

end HistoryEntry

namespace History

/-- Where an entry was read. -/
lemma mem_readEntries {v : Value} {e : HistoryEntry} (h : e ∈ readEntries v) :
    ∃ items fields, v = .list items ∧ .object fields ∈ items ∧
      HistoryEntry.ofFields fields = .ok e := by
  cases v with
  | list items =>
    obtain ⟨item, hitem, hi⟩ := List.mem_filterMap.1 h
    cases item with
    | object fields =>
      cases hf : HistoryEntry.ofFields fields with
      | error fault => simp [readItem, hf] at hi
      | ok e' =>
        simp only [readItem, hf, Option.bind_some, Option.some.injEq] at hi
        exact ⟨items, fields, rfl, hitem, hi ▸ hf⟩
    | _ => cases hi
  | _ => cases h

/-- Writes fail only with faults that are noted: every entry can be stored, and if writes are
refused, then with such a fault. -/
structure Quiet (h : History) : Prop where
  known : ∀ e ∈ h.entries, e.kind.IsKnown
  refusal : ∀ fault, h.storage.refusal = some fault → isAbsorbed fault.kind = true

/-- A new front of the list, cut to the limit. -/
def record (h : History) (e : HistoryEntry) : List HistoryEntry :=
  atMost h.maxItems (e :: h.entries)

variable {h : History}

/-- Whatever becomes of a save, only the storage changes. -/
lemma save_eq (h : History) : ∃ storage, h.save.2 = { h with storage } := by
  have hwrite : ∃ storage, h.write.2 = { h with storage } := by
    unfold write
    split
    · exact ⟨h.storage, rfl⟩
    · exact ⟨_, rfl⟩
  unfold save
  split
  · next hw => rwa [hw] at hwrite
  · exact hwrite

lemma push_eq (h : History) (e : HistoryEntry) :
    ∃ storage, (h.push e).2 = { h with entries := h.record e, storage } := save_eq _

lemma clear_eq (h : History) : ∃ storage, h.clear.2 = { h with entries := [], storage } :=
  save_eq { h with entries := [] }

lemma load_eq {storage : Storage} {key : String} {maxItems : Int}
    (h' : load storage key maxItems = .ok h) :
    ∃ v, storage.readJson key = .ok v ∧
      h = { storage, key, maxItems, entries := atMost maxItems (readEntries v) } := by
  obtain ⟨v, hv, hh⟩ := bind_eq_ok h'
  cases hh
  exact ⟨v, hv, rfl⟩

/-- A history that was loaded is quiet if refusals of its storage are noted. -/
lemma Quiet.of_load {storage : Storage} {key : String} {maxItems : Int}
    (h' : load storage key maxItems = .ok h)
    (hr : ∀ fault, storage.refusal = some fault → isAbsorbed fault.kind = true) : h.Quiet := by
  obtain ⟨v, -, rfl⟩ := load_eq h'
  refine ⟨?_, hr⟩
  intro e he
  obtain ⟨_, fields, -, -, hf⟩ := mem_readEntries ((atMost_sublist _ _).subset he)
  exact (HistoryEntry.ofFields_eq_ok hf).1

lemma mapM_toValue {es : List HistoryEntry} (hk : ∀ e ∈ es, e.kind.IsKnown) :
    ∃ vs, es.mapM HistoryEntry.toValue = .ok vs := by
  induction es with
  | nil => exact ⟨[], rfl⟩
  | cons e r ih =>
    obtain ⟨kind, he⟩ := hk e (by simp)
    obtain ⟨vs, hr⟩ := ih fun x hx => hk x (by simp [hx])
    have hv : e.toValue = .ok (.object (e.fields (Vocabulary.name kind))) := by
      simp only [HistoryEntry.toValue, he, RecordedKind.name, Except.map]
    refine ⟨.object (e.fields (Vocabulary.name kind)) :: vs, ?_⟩
    rw [List.mapM_cons, hv, hr]
    rfl

/-- A save of a quiet history succeeds as far as its caller can tell. -/
lemma Quiet.save (hq : h.Quiet) :
    ∃ storage, h.save = (.ok (), { h with storage }) ∧ storage.refusal = h.storage.refusal := by
  obtain ⟨vs, hvs⟩ := mapM_toValue hq.known
  have hv : h.toValue = .ok (.list vs) := by rw [toValue, hvs]; rfl
  have hw : h.write = ((h.storage.writeJson h.key (.list vs)).1,
      { h with storage := (h.storage.writeJson h.key (.list vs)).2 }) := by
    simp only [write, hv]
  refine ⟨(h.storage.writeJson h.key (.list vs)).2, ?_, Storage.refusal_writeJson _ _ _⟩
  rcases ho : (h.storage.writeJson h.key (.list vs)).1 with fault | u
  · have ha : isAbsorbed fault.kind = true := by
      rcases Storage.fault_of_writeJson ho with hr | rfl | rfl | rfl
      · exact hq.refusal fault hr
      · rfl
      · rfl
      · rfl
    simp [History.save, hw, ho, ha]
  · simp [History.save, hw, ho]

lemma Quiet.record (hq : h.Quiet) {e : HistoryEntry} (he : e.kind.IsKnown) {storage : Storage}
    (hs : storage.refusal = h.storage.refusal) :
    Quiet { h with entries := h.record e, storage } where
  known := by
    intro x hx
    rcases List.mem_cons.1 ((atMost_sublist _ _).subset hx) with rfl | hx
    · exact he
    · exact hq.known x hx
  refusal := by
    intro fault hf
    exact hq.refusal fault (hs ▸ hf)

/-- On a quiet history a push puts the entry in front. -/
lemma Quiet.push (hq : h.Quiet) {e : HistoryEntry} (he : e.kind.IsKnown) :
    ∃ storage, h.push e = (.ok (), { h with entries := h.record e, storage }) ∧
      Quiet { h with entries := h.record e, storage } := by
  have hq' : Quiet { h with entries := h.record e } := hq.record he rfl
  obtain ⟨storage, hs, hr⟩ := hq'.save
  exact ⟨storage, hs, hq.record he hr⟩

/-- On a quiet history a clear leaves nothing. -/
lemma Quiet.clear (hq : h.Quiet) :
    ∃ storage, h.clear = (.ok h.entries.length, { h with entries := [], storage }) ∧
      Quiet { h with entries := [], storage } := by
  have he : Quiet { h with entries := [] } := ⟨by simp, hq.refusal⟩
  obtain ⟨storage, hs, hr⟩ := he.save
  refine ⟨storage, ?_, ⟨by simp, fun fault hf => hq.refusal fault (hr ▸ hf)⟩⟩
  rw [History.clear, hs]
  rfl

end History

end StellarWallet
