import Mathlib.Data.List.Forall2
import StellarWallet.Proofs.History.Persistence

/-!
Which items of a stored list are loaded.

An item is loaded just if it is an object with a number as its amount, with an id and a timestamp,
with the names of a kind, a direction, an asset and a status, and with no phase, null or the name of
one. The loaded entries are those of the well-formed items, in their order, up to the limit; all
other items are as if they were not there.
-/

namespace StellarWallet

namespace Vocabulary

variable {α : Type} [Vocabulary α] {v : Value} {a : α}

/-- Only the name of a member is read as one. -/
lemma eq_text_of_read (h : read α v = .ok a) : v = .text (name a) := by
  unfold read ofValue at h
  split at h
  · next b hb =>
    obtain rfl : b = a := Except.ok.inj h
    obtain ⟨s, hs, hname⟩ := Option.bind_eq_some_iff.1 hb
    have hs' : name b = s := by simpa using List.find?_some hname
    cases v with
    | text t =>
      obtain rfl : t = s := Option.some.inj hs
      rw [hs']
    | _ => cases hs
  · cases h

end Vocabulary

namespace HistoryEntry

variable {fields : List (String × Value)} {e : HistoryEntry} {v : Value} {key : String}

lemma need_eq_ok_iff : need fields key = .ok v ↔ Fields.lookup key fields = some v := by
  unfold need
  cases Fields.lookup key fields with
  | none => simp
  | some w => simp

lemma readPhase_eq_ok_iff {phase : Option TxPhase} : readPhase v = .ok phase ↔
    v = (phase.map fun p => Value.text (Vocabulary.name p)).getD .null := by
  constructor
  · intro h
    unfold readPhase at h
    split at h
    · next hnull =>
      cases h
      cases v with
      | null => rfl
      | _ => cases hnull
    · cases hread : Vocabulary.read TxPhase v with
      | error fault => rw [hread] at h; cases h
      | ok p =>
        rw [hread] at h
        cases h
        exact Vocabulary.eq_text_of_read hread
  · rintro rfl
    cases phase with
    | none => rfl
    | some p => exact congrArg (Option.some <$> ·) (Vocabulary.read_phase p)

/-- What an entry says is what stands in the fields, and everything that an entry needs is there. -/
structure IsSaidBy (e : HistoryEntry) (fields : List (String × Value)) : Prop where
  amount : Fields.lookup "amount" fields = some (.number e.amount)
  id : ∃ v, Fields.lookup "id" fields = some v ∧ e.id = v.display
  timestamp : ∃ v, Fields.lookup "timestamp" fields = some v ∧ e.timestamp = v.display
  kind : ∃ kind, Fields.lookup "kind" fields = some (.text (Vocabulary.name (α := TxKind) kind)) ∧
    e.kind = .known kind
  direction : Fields.lookup "direction" fields = some (.text (Vocabulary.name e.direction))
  asset : Fields.lookup "asset" fields = some (.text (Vocabulary.name e.asset))
  status : Fields.lookup "status" fields = some (.text (Vocabulary.name e.status))
  phase : (Fields.lookup "phase" fields).getD .null = e.phaseValue
  hash : e.hash = (Fields.lookup "hash" fields).getD .null
  link : e.link = (Fields.lookup "explorerUrl" fields).getD .null
  reason : e.reason = (Fields.lookup "reason" fields).getD .null

/-- What is needed for fields to make an entry. -/
structure AreWellFormed (fields : List (String × Value)) : Prop where
  amount : ∃ n, Fields.lookup "amount" fields = some (.number n)
  id : (Fields.lookup "id" fields).isSome
  timestamp : (Fields.lookup "timestamp" fields).isSome
  kind : ∃ k : TxKind, Fields.lookup "kind" fields = some (.text (Vocabulary.name k))
  direction : ∃ d : TxDirection,
    Fields.lookup "direction" fields = some (.text (Vocabulary.name d))
  asset : ∃ a : Asset, Fields.lookup "asset" fields = some (.text (Vocabulary.name a))
  status : ∃ s : TxStatus, Fields.lookup "status" fields = some (.text (Vocabulary.name s))
  phase : Fields.lookup "phase" fields = none ∨ Fields.lookup "phase" fields = some .null ∨
    ∃ p : TxPhase, Fields.lookup "phase" fields = some (.text (Vocabulary.name p))

/-- An entry is read just from fields that say what it says. -/
lemma ofFields_eq_ok_iff : ofFields fields = .ok e ↔ e.IsSaidBy fields := by
  constructor
  · intro h
    unfold ofFields at h
    obtain ⟨v, hamount, h⟩ := bind_eq_ok h
    obtain ⟨amount, hnumber, h⟩ := bind_eq_ok h
    obtain ⟨id, hid, h⟩ := bind_eq_ok h
    obtain ⟨_, hkind, h⟩ := bind_eq_ok h
    obtain ⟨kind, hk, h⟩ := bind_eq_ok h
    obtain ⟨_, hdirection, h⟩ := bind_eq_ok h
    obtain ⟨direction, hd, h⟩ := bind_eq_ok h
    obtain ⟨_, hasset, h⟩ := bind_eq_ok h
    obtain ⟨asset, ha, h⟩ := bind_eq_ok h
    obtain ⟨_, hstatus, h⟩ := bind_eq_ok h
    obtain ⟨status, hs, h⟩ := bind_eq_ok h
    obtain ⟨timestamp, htimestamp, h⟩ := bind_eq_ok h
    obtain ⟨phase, hphase, h⟩ := bind_eq_ok h
    cases h
    rw [need_eq_ok_iff] at hid hkind hdirection hasset hstatus htimestamp
    rw [Vocabulary.eq_text_of_read hk] at hkind
    rw [Vocabulary.eq_text_of_read hd] at hdirection
    rw [Vocabulary.eq_text_of_read ha] at hasset
    rw [Vocabulary.eq_text_of_read hs] at hstatus
    exact {
      amount := lookup_of_readAmount hamount hnumber
      id := ⟨id, hid, rfl⟩
      timestamp := ⟨timestamp, htimestamp, rfl⟩
      kind := ⟨kind, hkind, rfl⟩
      direction := hdirection
      asset := hasset
      status := hstatus
      phase := readPhase_eq_ok_iff.1 hphase
      hash := rfl
      link := rfl
      reason := rfl }
  · intro h
    obtain ⟨id, hid, hid'⟩ := h.id
    obtain ⟨timestamp, htimestamp, htimestamp'⟩ := h.timestamp
    obtain ⟨kind, hkind, hkind'⟩ := h.kind
    have hphase : readPhase ((Fields.lookup "phase" fields).getD .null) = .ok e.phase :=
      readPhase_eq_ok_iff.2 h.phase
    rw [ofFields]
    simp only [need_eq_ok_iff.2 h.amount, need_eq_ok_iff.2 hid, need_eq_ok_iff.2 hkind,
      need_eq_ok_iff.2 h.direction, need_eq_ok_iff.2 h.asset, need_eq_ok_iff.2 h.status,
      need_eq_ok_iff.2 htimestamp, hphase, ok_bind, readAmount, Vocabulary.read_kind,
      Vocabulary.read_direction, Vocabulary.read_asset, Vocabulary.read_status]
    rw [← hid', ← htimestamp', ← hkind', ← h.hash, ← h.link, ← h.reason]
    rfl

lemma exists_isSaidBy_iff : (∃ e, IsSaidBy e fields) ↔ AreWellFormed fields := by
  constructor
  · rintro ⟨e, h⟩
    obtain ⟨id, hid, -⟩ := h.id
    obtain ⟨timestamp, htimestamp, -⟩ := h.timestamp
    obtain ⟨kind, hkind, -⟩ := h.kind
    refine ⟨⟨_, h.amount⟩, by rw [hid]; rfl, by rw [htimestamp]; rfl, ⟨_, hkind⟩, ⟨_, h.direction⟩,
      ⟨_, h.asset⟩, ⟨_, h.status⟩, ?_⟩
    have hphase := h.phase
    unfold phaseValue at hphase
    cases hl : Fields.lookup "phase" fields with
    | none => exact Or.inl rfl
    | some v =>
      rw [hl] at hphase
      cases he : e.phase with
      | none => rw [he] at hphase; exact Or.inr (Or.inl (congrArg some hphase))
      | some p => rw [he] at hphase; exact Or.inr (Or.inr ⟨p, congrArg some hphase⟩)
  · intro h
    obtain ⟨amount, hamount⟩ := h.amount
    obtain ⟨id, hid⟩ := Option.isSome_iff_exists.1 h.id
    obtain ⟨timestamp, htimestamp⟩ := Option.isSome_iff_exists.1 h.timestamp
    obtain ⟨kind, hkind⟩ := h.kind
    obtain ⟨direction, hdirection⟩ := h.direction
    obtain ⟨asset, hasset⟩ := h.asset
    obtain ⟨status, hstatus⟩ := h.status
    obtain ⟨phase, hphase⟩ : ∃ phase : Option TxPhase, (Fields.lookup "phase" fields).getD .null
        = (phase.map fun p => Value.text (Vocabulary.name p)).getD .null := by
      obtain hnone | hnull | ⟨p, hp⟩ := h.phase
      · exact ⟨none, by rw [hnone]; rfl⟩
      · exact ⟨none, by rw [hnull]; rfl⟩
      · exact ⟨some p, by rw [hp]; rfl⟩
    exact ⟨{ id := id.display, kind := .known kind, direction, asset, amount, status
             timestamp := timestamp.display, phase
             hash := (Fields.lookup "hash" fields).getD .null
             link := (Fields.lookup "explorerUrl" fields).getD .null
             reason := (Fields.lookup "reason" fields).getD .null },
      hamount, ⟨id, hid, rfl⟩, ⟨timestamp, htimestamp, rfl⟩, ⟨kind, hkind, rfl⟩, hdirection, hasset,
      hstatus, hphase, rfl, rfl, rfl⟩

lemma isOk_ofFields_iff : (ofFields fields).isOk = true ↔ AreWellFormed fields := by
  rw [← exists_isSaidBy_iff]
  cases h : ofFields fields with
  | error fault =>
    refine iff_of_false Bool.false_ne_true ?_
    rintro ⟨e, he⟩
    rw [← ofFields_eq_ok_iff, h] at he
    cases he
  | ok e => exact iff_of_true rfl ⟨e, ofFields_eq_ok_iff.1 h⟩

instance (fields : List (String × Value)) : Decidable (AreWellFormed fields) :=
  decidable_of_iff _ isOk_ofFields_iff

end HistoryEntry

namespace History

/-- The item is an object with well-formed fields. -/
def IsWellFormed : Value → Prop
  | .object fields => HistoryEntry.AreWellFormed fields
  | _ => False

instance : DecidablePred IsWellFormed := fun v =>
  match v with
  | .object fields => inferInstanceAs (Decidable (HistoryEntry.AreWellFormed fields))
  | .null | .bool _ | .number _ | .text _ | .bytes _ | .list _ => isFalse id

/-- The entry says what the item says. -/
def IsEntryOf (v : Value) (e : HistoryEntry) : Prop :=
  ∃ fields, v = .object fields ∧ e.IsSaidBy fields

variable {storage : Storage} {key : String} {maxItems : Int}

lemma readItem_of_isWellFormed {v : Value} (h : IsWellFormed v) :
    ∃ e, readItem v = some (.ok e) ∧ IsEntryOf v e := by
  cases v with
  | object fields =>
    obtain ⟨e, he⟩ := HistoryEntry.exists_isSaidBy_iff.2 h
    exact ⟨e, congrArg some (HistoryEntry.ofFields_eq_ok_iff.2 he), fields, rfl, he⟩
  | _ => cases h

lemma readItem_ne_of_not_isWellFormed {v : Value} (h : ¬ IsWellFormed v) (e : HistoryEntry) :
    readItem v ≠ some (.ok e) := by
  intro he
  cases v with
  | object fields =>
    have hsaid := HistoryEntry.ofFields_eq_ok_iff.1 (Option.some.inj he)
    exact h (HistoryEntry.exists_isSaidBy_iff.1 ⟨e, hsaid⟩)
  | _ => cases he

lemma readEntries_cons_of_ok {v : Value} {e : HistoryEntry} (h : readItem v = some (.ok e))
    (items : List Value) : readEntries (.list (v :: items)) = e :: readEntries (.list items) := by
  unfold readEntries
  dsimp only
  rw [List.filterMap_cons_some (b := e) (by rw [h]; rfl)]

lemma readEntries_cons_of_ne_ok {v : Value} (h : ∀ e, readItem v ≠ some (.ok e))
    (items : List Value) : readEntries (.list (v :: items)) = readEntries (.list items) := by
  unfold readEntries
  dsimp only
  rw [List.filterMap_cons_none]
  cases hread : readItem v with
  | none => rfl
  | some result =>
    cases result with
    | error fault => rfl
    | ok e => exact absurd hread (h e)

/-- The entries of a list are those of its well-formed items, in order. -/
lemma forall₂_readEntries (items : List Value) :
    List.Forall₂ IsEntryOf (items.filter (IsWellFormed ·)) (readEntries (.list items)) := by
  induction items with
  | nil => exact .nil
  | cons v items ih =>
    by_cases hv : IsWellFormed v
    · obtain ⟨e, hread, he⟩ := readItem_of_isWellFormed hv
      rw [List.filter_cons_of_pos (by simpa using hv), readEntries_cons_of_ok hread]
      exact .cons he ih
    · rw [List.filter_cons_of_neg (by simpa using hv),
        readEntries_cons_of_ne_ok (readItem_ne_of_not_isWellFormed hv)]
      exact ih

/-- **Loading keeps just the well-formed entries.** Whatever text is in the slot, a history is
loaded unless the text goes too deep. If the text is a JSON list, its entries are those of the
well-formed items, in order, up to the limit; for any other text, and for none, it is empty. -/
theorem load_keeps_wellFormed {text? : Option String} (hslot : storage.get key = .ok text?)
    (hroom : ∀ text ∈ text?, storage.reader.HasRoom text) (hm : 0 ≤ maxItems) :
    ∃ h, load storage key maxItems = .ok h ∧
      (∀ items, text?.bind storage.reader.read? = some (.list items) →
        List.Forall₂ IsEntryOf ((items.filter (IsWellFormed ·)).take maxItems.toNat) h.entries) ∧
      ((∀ items, text?.bind storage.reader.read? ≠ some (.list items)) → h.entries = []) := by
  refine ⟨_, load_of_get hslot hroom, ?_, ?_⟩
  · intro items hitems
    rw [hitems]
    dsimp only [Option.getD_some]
    rw [atMost_of_nonneg hm]
    exact List.forall₂_take _ (forall₂_readEntries items)
  · intro hnone
    have hempty : readEntries ((text?.bind storage.reader.read?).getD .null) = [] := by
      cases hv : text?.bind storage.reader.read? with
      | none => rfl
      | some v =>
        cases v with
        | list items => exact absurd hv (hnone items)
        | _ => rfl
    dsimp only
    rw [hempty]
    exact HistoryChange.atMost_nil maxItems

/-- A number, an amount that is a truth value and a kind that is a list are skipped, and do not
count against the limit. -/
theorem load_of_mixed_items :
    let number (n : Int) : Value := .number (.whole n)
    let item (id kind amount : Value) : Value := .object [("id", id), ("kind", kind),
      ("direction", .text "deposit"), ("asset", .text "XLM"), ("status", .text "failed"),
      ("timestamp", .null), ("amount", amount)]
    let text := String.ofList (Json.encode (.list [number 1,
      item (number 7) (.text "classic") (.bool true), item (number 8) (.text "classic") (number 2),
      item (number 9) (.list [.text "classic"]) (number 2), item .null (.text "soroban") (number 3)]))
    let storage : Storage := { backend := .memory [("history", text)] }
    storage.get "history" = .ok (some text) ∧ storage.reader.HasRoom text ∧
      (load storage "history" 2).map (fun h => h.entries.map (·.id)) = .ok ["8", "None"] ∧
      ∃ h, load storage "history" 2 = .ok h ∧
        (∀ items, (some text).bind storage.reader.read? = some (.list items) →
          List.Forall₂ IsEntryOf ((items.filter (IsWellFormed ·)).take 2) h.entries) ∧
        ((∀ items, (some text).bind storage.reader.read? ≠ some (.list items)) →
          h.entries = []) := by
  intro number item text storage
  have hslot : storage.get "history" = .ok (some text) := rfl
  have hroom : ∀ s ∈ some text, storage.reader.HasRoom s := by
    intro s hs
    refine Json.Reader.hasRoom_of_isOk ?_
    rw [← Option.some.inj hs, Json.Reader.read, String.toList_ofList]
    decide +kernel
  refine ⟨hslot, hroom _ rfl, ?_, load_keeps_wellFormed hslot hroom (by decide)⟩
  rw [load_of_get hslot hroom, Option.bind_some, Json.Reader.read?, Json.Reader.read,
    String.toList_ofList]
  decide +kernel

end History

end StellarWallet
