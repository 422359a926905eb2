import StellarWallet.Proofs.Tracker.Saving

/-!
The kind that work reports among its fields.

A kind that is a text, or that there is nothing in, makes a call end as any other, and the history
goes on being saved. Any other kind gets into the record of the call as it is: the call ends with a
fault of its own, and the record keeps the history from being saved until it has left the list.
-/

namespace StellarWallet

namespace WorkResult

variable {fs : List (String × Value)} {v : Value}

/-- There is something in the kind among the fields, and it is no text. -/
structure HasForeignKind (fs : List (String × Value)) (v : Value) : Prop where
  lookup : Fields.lookup "kind" fs = some v
  filled : v.isFilled = true
  not_text : ∀ s, v ≠ .text s

lemma hasUsableKind_or_hasForeignKind (fs : List (String × Value)) :
    HasUsableKind fs ∨ ∃ v, HasForeignKind fs v := by
  by_cases h : ∃ v, HasForeignKind fs v
  · exact Or.inr h
  · refine Or.inl fun v hv hf => ?_
    by_contra hs
    exact h ⟨v, hv, hf, fun s hvs => hs ⟨s, hvs⟩⟩

lemma HasForeignKind.extract_eq (h : HasForeignKind fs v) (kind : RecordedKind) :
    (fields fs).extract kind = .ok ((Fields.lookup "hash" fs).getD .null, .foreign v) := by
  simp only [extract, h.lookup, Option.getD_some, reportedKind_of_not_text h.not_text,
    if_pos h.filled]
  rfl

end WorkResult

/-- No link can be built for a foreign kind. -/
lemma ExplorerLinks.recordedLink_foreign (links : ExplorerLinks) (v : Value) (hash : String) :
    ∃ fault, links.recordedLink (.foreign v) hash = .error fault := by
  cases v <;> exact ⟨_, rfl⟩

/-! ### Foreign kinds -/

namespace Tracker

/-- Records some drafts, each with its identifier and timestamp. -/
def appendAll (t : Tracker) (ds : List (Draft × String × String)) : Tracker :=
  ds.foldl (fun t d => (t.append d.1 d.2.1 d.2.2).2) t

/-- As long as a foreign entry is kept, a draft is not recorded. -/
lemma append_of_isBlocked {t : Tracker} {i : Nat} (hb : t.history.IsBlocked i)
    (hi : (i : Int) + 1 < t.history.maxItems) (d : Draft) (id timestamp : String) :
    (t.append d id timestamp).1 = .error RecordedKind.unnamed ∧
      (t.append d id timestamp).2.history
        = { t.history with entries := t.history.record (d.entry t.links id timestamp) } ∧
      (t.append d id timestamp).2.history.IsBlocked (i + 1) := by
  obtain ⟨hpush, hblocked⟩ := hb.push hi (d.entry t.links id timestamp)
  obtain ⟨houtcome, hhistory⟩ := t.commit_eq (d.entry t.links id timestamp)
  rw [hpush] at houtcome hhistory
  have hafter : (t.append d id timestamp).2.history
      = { t.history with entries := t.history.record (d.entry t.links id timestamp) } := hhistory
  refine ⟨?_, hafter, hafter ▸ hblocked⟩
  change ((t.commit (d.entry t.links id timestamp)).1.map _) = _
  rw [houtcome]
  rfl

lemma appendAll_of_isBlocked {t : Tracker} {i : Nat} (hb : t.history.IsBlocked i)
    {ds : List (Draft × String × String)} (hi : (i : Int) + ds.length < t.history.maxItems) :
    (t.appendAll ds).history.IsBlocked (i + ds.length) ∧
      (t.appendAll ds).history.maxItems = t.history.maxItems ∧
      (t.appendAll ds).history.storage = t.history.storage := by
  induction ds generalizing t i with
  | nil => exact ⟨hb, rfl, rfl⟩
  | cons d r ih =>
    rw [List.length_cons] at hi ⊢
    obtain ⟨-, hafter, hblocked⟩ := append_of_isBlocked hb (by omega) d.1 d.2.1 d.2.2
    have hmax : (t.append d.1 d.2.1 d.2.2).2.history.maxItems = t.history.maxItems := by
      rw [hafter]
    have hstorage : (t.append d.1 d.2.1 d.2.2).2.history.storage = t.history.storage := by
      rw [hafter]
    obtain ⟨hrest, hmax', hstorage'⟩ := ih hblocked (by rw [hmax]; omega)
    refine ⟨?_, hmax'.trans hmax, hstorage'.trans hstorage⟩
    rw [show i + (r.length + 1) = i + 1 + r.length by omega]
    exact hrest

end Tracker

namespace Call

variable {c : Call} {t : Tracker} {info : TxMeta} {id timestamp : String} {phases : List TxPhase}
  {fs : List (String × Value)} {v : Value}

lemma submit_foreign (hk : c.entry.kind = .foreign v) (t : Tracker) (hash : String) :
    ∃ (t' : Tracker) (fault : Fault),
      c.submit t hash = (c.hashed hash).leaveSigning.raise t' fault ∧ t'.history = t.history := by
  obtain ⟨hleft, hhistory, -⟩ := leave_eq (c.hashed hash) t
  have hkind : (c.hashed hash).leaveSigning.entry.kind = .foreign v := by
    rw [leaveSigning_kind]
    exact hk
  obtain ⟨fault, hlink⟩ := ((c.hashed hash).leave t).2.links.recordedLink_foreign v hash
  refine ⟨((c.hashed hash).leave t).2, fault, ?_, hhistory⟩
  rw [submit_eq]
  simp only [hleft, hkind, hlink]

/-- Whatever else is among the fields, a foreign kind makes the call fail with that kind in its
entry. -/
lemma receive_foreign (hf : WorkResult.HasForeignKind fs v) (hc : c.Concerns info id)
    (t : Tracker) : ∃ (c' : Call) (t' : Tracker) (fault : Fault),
      c.receive t (.fields fs) = c'.raise t' fault ∧ c'.Concerns info id ∧
        c'.entry.kind = .foreign v ∧ t'.history = t.history := by
  have hkind := hc.ofKind (.foreign v)
  have hfails : ∃ (c' : Call) (t' : Tracker) (fault : Fault),
      (c.ofKind (.foreign v)).raise t noHash = c'.raise t' fault ∧ c'.Concerns info id ∧
        c'.entry.kind = .foreign v ∧ t'.history = t.history :=
    ⟨_, _, _, rfl, hkind, rfl, rfl⟩
  unfold receive
  rw [hf.extract_eq]
  dsimp only
  split
  · next s _ =>
    split
    · exact hfails
    · obtain ⟨t', fault, hsubmit, hhistory⟩ :=
        submit_foreign (c := c.ofKind (.foreign v)) rfl t s
      exact ⟨_, t', fault, hsubmit, hkind.hashed s, leaveSigning_kind _, hhistory⟩
  · exact hfails

/-- A call whose work hands over a foreign kind fails, and its history with it. -/
lemma track_foreign (info : TxMeta) (id timestamp : String) (phases : List TxPhase)
    (hm : 0 < t.history.maxItems) (hf : WorkResult.HasForeignKind fs v)
    (wait : String → RecordedKind → Ending Unit) :
    let r := track t info id timestamp phases (.returned (.fields fs)) wait
    r.call.stage = .ended (.fault RecordedKind.unnamed) ∧
      ∃ e, e.id = id ∧ e.kind = .foreign v ∧
        r.tracker.history = { t.history with entries := t.history.record e } := by
  obtain ⟨t₁, hhistory, -, hstep⟩ :=
    exists_worked_eq t info id timestamp phases (.returned (.fields fs))
  have hatEnd : (atWorkEnd info id timestamp phases).Concerns info id :=
    ⟨rfl, rfl, Or.inl rfl, Or.inl rfl, Or.inl rfl⟩
  obtain ⟨c', t', fault, hreceive, hconcerns, hkind, hhistory'⟩ := receive_foreign hf hatEnd t₁
  have hworked : worked t info id timestamp phases (.returned (.fields fs)) = c'.raise t' fault :=
    hstep.trans hreceive
  -- The failure is pushed with the kind that caused it, so the push of it fails as well.
  have hpush := History.push_of_foreign
    (List.mem_of_getElem? (History.getElem?_record_zero hm (c'.refused fault).entry)) hkind
  rw [← hhistory'.trans hhistory] at hpush
  have hstage : (worked t info id timestamp phases (.returned (.fields fs))).1.stage
      = .ended (.fault RecordedKind.unnamed) := by
    rw [hworked]
    exact endFailed_stage_of_error (congrArg Prod.fst hpush)
  have hafter : (c'.raise t' fault).2.history = (t'.history.push (c'.refused fault).entry).2 :=
    endFailed_history c' t' _ _
  rw [hpush, hhistory'.trans hhistory] at hafter
  intro r
  rw [show r = _ from track_of_stage_ended hstage wait]
  refine ⟨hstage, (c'.refused fault).entry, hconcerns.id, hkind, ?_⟩
  rw [hworked, hafter]

/-! ### The kind decides -/

/-- A call has ended in order, and its tracker records it and whatever comes after it. -/
structure EndsInOrder (t : Tracker) (id : String) (r : Tracked) : Prop where
  stage : EndsOrdinarily r.call.stage
  adds : t.Adds r.tracker id
  /-- So does every later use, however many there are before it. -/
  later : ∀ us : List TrackerUse, (∀ u ∈ us, u.IsUsable) → ∀ u : TrackerUse, u.IsUsable →
    (us.foldl TrackerUse.run r.tracker).Adds (u.run (us.foldl TrackerUse.run r.tracker)) u.id

/-- A call has ended with a fault of its own, and its record keeps the history from being saved. -/
structure EndsBlocked (t : Tracker) (id : String) (v : Value) (r : Tracked) : Prop where
  stage : r.call.stage = .ended (.fault RecordedKind.unnamed)
  /-- The record is in memory; the storage is what it was before. -/
  record : ∃ e, e.id = id ∧ e.kind = .foreign v ∧
    r.tracker.history = { t.history with entries := t.history.record e }
  /-- No draft is recorded until the record has left the list, and none is written. -/
  later : ∀ ds : List (Draft × String × String), (ds.length : Int) + 1 < t.history.maxItems →
    ∀ d id timestamp,
      ((r.tracker.appendAll ds).append d id timestamp).1 = .error RecordedKind.unnamed ∧
        ((r.tracker.appendAll ds).append d id timestamp).2.history.storage = t.history.storage

/-- A foreign entry in front keeps the drafts after it from being recorded. -/
lemma endsBlocked_of_record {r : Tracked} {e : HistoryEntry} (hm : 0 < t.history.maxItems)
    (hs : r.call.stage = .ended (.fault RecordedKind.unnamed)) (hid : e.id = id)
    (hk : e.kind = .foreign v)
    (hh : r.tracker.history = { t.history with entries := t.history.record e }) :
    EndsBlocked t id v r := by
  have hblocked : r.tracker.history.IsBlocked 0 := by
    rw [hh]
    exact ⟨e, v, History.getElem?_record_zero hm e, hk⟩
  have hmax : r.tracker.history.maxItems = t.history.maxItems := by rw [hh]
  have hstorage : r.tracker.history.storage = t.history.storage := by rw [hh]
  refine ⟨hs, ⟨e, hid, hk, hh⟩, fun ds hds d id' timestamp => ?_⟩
  obtain ⟨hafter, hmax', hstorage'⟩ := Tracker.appendAll_of_isBlocked hblocked
    (show _ + (ds.length : Int) < _ by rw [hmax]; omega)
  obtain ⟨hfails, hhistory, -⟩ := Tracker.append_of_isBlocked hafter
    (by rw [hmax', hmax]; omega) d id' timestamp
  refine ⟨hfails, ?_⟩
  rw [hhistory]
  exact hstorage'.trans hstorage

/-- **The reported kind decides.** A call whose work hands over fields, and whose wait is not
cancelled, ends in order if the kind among the fields is a text or there is nothing in it; any other
kind ends it with a fault of its own and blocks the history, if the history keeps any entries. -/
theorem track_fields_outcome (t : Tracker) (info : TxMeta) (id timestamp : String)
    (phases : List TxPhase) (fs : List (String × Value))
    (wait : String → RecordedKind → Ending Unit) (hs : t.history.IsSavable)
    (ha : Json.IsReadable info.amount) (hwait : ∀ hash kind, wait hash kind ≠ .cancelled) :
    let r := track t info id timestamp phases (.returned (.fields fs)) wait
    (WorkResult.HasUsableKind fs ∧ EndsInOrder t id r) ∨
      ∃ v, WorkResult.HasForeignKind fs v ∧ (0 < t.history.maxItems → EndsBlocked t id v r) := by
  intro r
  rcases WorkResult.hasUsableKind_or_hasForeignKind fs with hu | ⟨v, hf⟩
  · have hn : (Ending.returned (WorkResult.fields fs)).KindIsUsable := hu
    obtain ⟨hadds, hord⟩ := track_adds id timestamp phases hs ha hn wait
    exact Or.inl ⟨hu, hord (by simp) hwait, hadds, TrackerUse.runs_adds hadds.saved.savable⟩
  · refine Or.inr ⟨v, hf, fun hm => ?_⟩
    obtain ⟨hstage, e, hid, hk, hh⟩ := track_foreign info id timestamp phases hm hf wait
    exact endsBlocked_of_record hm hstage hid hk hh

/-- A payment whose work reports a hash and a number as its kind ends blocked. -/
theorem payment_of_numbered_kind_outcome :
    let t : Tracker := { history := { storage := { backend := .memory [] } }
                         links := ⟨"https://classic", "https://soroban"⟩ }
    let info : TxMeta := ⟨.classic, .withdraw, .xlm, .whole 5, none⟩
    let fs : List (String × Value) := [("hash", .text "ab"), ("kind", .number (.whole 5))]
    let wait : String → RecordedKind → Ending Unit := fun _ _ => .returned ()
    t.history.IsSavable ∧ Json.IsReadable info.amount ∧
      (∀ hash kind, wait hash kind ≠ .cancelled) ∧
      EndsBlocked t "id" (.number (.whole 5))
        (track t info "id" "now" [] (.returned (.fields fs)) wait) := by
  intro t info fs wait
  have hs : t.history.IsSavable := ⟨by simp [t], by simp [t], rfl, trivial⟩
  have ha : Json.IsReadable info.amount := by
    unfold Json.IsReadable Json.IsShort
    decide
  have hwait : ∀ hash kind, wait hash kind ≠ .cancelled := by simp [wait]
  have hf : WorkResult.HasForeignKind fs (.number (.whole 5)) := ⟨rfl, by decide, by simp⟩
  refine ⟨hs, ha, hwait, ?_⟩
  obtain ⟨hu, -⟩ | ⟨v, hv, hblocked⟩ :=
    track_fields_outcome t info "id" "now" [] fs wait hs ha hwait
  · obtain ⟨s, hs⟩ := hu _ hf.lookup hf.filled
    exact absurd hs (hf.not_text s)
  · obtain rfl := Option.some.inj (hf.lookup.symm.trans hv.lookup)
    exact hblocked (by decide)

/-- The call of that payment returns no hash and fails with no fault of a transaction; its record
stays in memory, the slot is never written, and a payment after it is not recorded either. -/
theorem payment_of_numbered_kind_blocks :
    let t : Tracker := { history := { storage := { backend := .memory [] } }
                         links := ⟨"https://classic", "https://soroban"⟩ }
    let info : TxMeta := ⟨.classic, .withdraw, .xlm, .whole 5, none⟩
    let fs : List (String × Value) := [("hash", .text "ab"), ("kind", .number (.whole 5))]
    let r := track t info "id" "now" [] (.returned (.fields fs)) fun _ _ => .returned ()
    let later := r.tracker.append ⟨.withdraw, .xlm, .whole 5, .classic, .pending, none, none⟩ "id2"
      "now"
    r.call.stage = .ended (.fault RecordedKind.unnamed) ∧
      RecordedKind.unnamed.kind ≠ .transaction ∧
      r.tracker.history.entries.map (·.id) = ["id"] ∧
      r.tracker.history.storage.get r.tracker.history.key = .ok none ∧
      later.1.toOption.isNone = true ∧
      later.2.history.storage.get later.2.history.key = .ok none := by
  refine ⟨?_, ?_, ?_, ?_, ?_, ?_⟩
  all_goals decide

end Call

end StellarWallet
