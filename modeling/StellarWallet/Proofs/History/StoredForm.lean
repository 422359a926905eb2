import StellarWallet.History.Basic
import StellarWallet.Proofs.History.Recording
import StellarWallet.Proofs.Json.Reading

/-!
The stored form of entries.

An entry is read back from its stored form, field for field, and the stored form is plain when the
values left in the entry are.
-/

namespace StellarWallet

namespace Fields

variable {α : Type} {key : String} {fields : List (String × α)}

lemma lookup_append (key : String) (fs gs : List (String × α)) :
    lookup key (fs ++ gs) = (lookup key fs).or (lookup key gs) := by
  induction fs with
  | nil => rfl
  | cons f r ih =>
    obtain ⟨k, v⟩ := f
    rw [List.cons_append, lookup, lookup]
    split
    · rfl
    · exact ih

lemma mem_of_lookup {v : α} (h : lookup key fields = some v) : (key, v) ∈ fields := by
  induction fields with
  | nil => cases h
  | cons f r ih =>
    obtain ⟨k, w⟩ := f
    rw [lookup] at h
    split at h
    · next hk =>
      cases h
      rw [hk]
      exact List.mem_cons_self
    · exact List.mem_cons_of_mem _ (ih h)

end Fields

namespace Vocabulary

lemma read_kind (kind : TxKind) : read TxKind (.text (name kind)) = .ok kind := by
  cases kind <;> rfl

lemma read_direction (d : TxDirection) : read TxDirection (.text (name d)) = .ok d := by
  cases d <;> rfl

lemma read_asset (a : Asset) : read Asset (.text (name a)) = .ok a := by
  cases a <;> rfl

lemma read_status (s : TxStatus) : read TxStatus (.text (name s)) = .ok s := by
  cases s <;> rfl

lemma read_phase (p : TxPhase) : read TxPhase (.text (name p)) = .ok p := by
  cases p <;> rfl

end Vocabulary

namespace HistoryEntry

/-- Fields without those in which there is nothing. -/
def filled (fs : List (String × Value)) : List (String × Value) :=
  fs.flatMap fun f => optional f.1 f.2

lemma filled_cons (key : String) (v : Value) (fs : List (String × Value)) :
    filled ((key, v) :: fs) = optional key v ++ filled fs := List.flatMap_cons

lemma keys_optional (key : String) (v : Value) :
    ((optional key v).map Prod.fst).Sublist [key] := by
  unfold optional
  split
  · exact List.nil_sublist _
  · exact List.Sublist.refl _

lemma keys_filled (fs : List (String × Value)) :
    ((filled fs).map Prod.fst).Sublist (fs.map Prod.fst) := by
  induction fs with
  | nil => exact List.Sublist.refl _
  | cons f r ih =>
    obtain ⟨k, v⟩ := f
    rw [filled_cons, List.map_append, List.map_cons, ← List.singleton_append]
    exact (keys_optional k v).append ih

lemma lookup_optional_of_ne {key other : String} (h : key ≠ other) (v : Value) :
    Fields.lookup other (optional key v) = none := by
  unfold optional
  split
  · rfl
  · rw [Fields.lookup, if_neg h, Fields.lookup]

/-- A field that is left out reads as null, which is what was in it. -/
lemma getD_lookup_filled {fs : List (String × Value)} (h : (fs.map Prod.fst).Nodup)
    (key : String) :
    (Fields.lookup key (filled fs)).getD .null = (Fields.lookup key fs).getD .null := by
  induction fs with
  | nil => rfl
  | cons f r ih =>
    obtain ⟨k, v⟩ := f
    rw [List.map_cons, List.nodup_cons] at h
    rw [filled_cons, Fields.lookup_append, Fields.lookup]
    by_cases hk : k = key
    · subst hk
      have hnone : Fields.lookup k (filled r) = none := by
        cases hl : Fields.lookup k (filled r) with
        | none => rfl
        | some w =>
          have hmem := List.mem_map_of_mem (f := Prod.fst) (Fields.mem_of_lookup hl)
          exact absurd ((keys_filled r).subset hmem) h.1
      rw [hnone, Option.or_none, if_pos rfl]
      unfold optional
      cases v <;> simp [Value.isNull, Fields.lookup]
    · rw [lookup_optional_of_ne hk, Option.none_or, if_neg hk]
      exact ih h.2

lemma isPlain_filled {p : Number → Prop} {room : Nat} {fs : List (String × Value)}
    (h : ∀ f ∈ fs, f.2.IsPlain p room) : ∀ f ∈ filled fs, f.2.IsPlain p room := by
  intro f hf
  obtain ⟨g, hg, hfg⟩ := List.mem_flatMap.1 hf
  unfold optional at hfg
  split at hfg
  · cases hfg
  · rw [List.mem_singleton.1 hfg]
    exact h g hg

/-- The stored form of the phase of an entry. -/
def phaseValue (e : HistoryEntry) : Value :=
  (e.phase.map fun p => Value.text (Vocabulary.name p)).getD .null

lemma readPhase_phaseValue (e : HistoryEntry) : readPhase e.phaseValue = .ok e.phase := by
  unfold phaseValue
  cases e.phase with
  | none => rfl
  | some p =>
    simp only [Option.map_some, Option.getD_some, readPhase, Value.isNull]
    rw [Vocabulary.read_phase]
    rfl

/-- The fields of an entry that are always there. -/
def required (e : HistoryEntry) (kind : String) : List (String × Value) :=
  [("id", .text e.id),
    ("direction", .text (Vocabulary.name e.direction)),
    ("asset", .text (Vocabulary.name e.asset)),
    ("amount", .number e.amount),
    ("kind", .text kind),
    ("status", .text (Vocabulary.name e.status)),
    ("timestamp", .text e.timestamp)]

/-- The fields of an entry that may be left out. -/
def optionals (e : HistoryEntry) : List (String × Value) :=
  [("phase", e.phaseValue), ("hash", e.hash), ("explorerUrl", e.link), ("reason", e.reason)]

lemma fields_eq (e : HistoryEntry) (kind : String) :
    e.fields kind = e.required kind ++ filled e.optionals := by
  simp only [optionals, filled, List.flatMap_cons, List.flatMap_nil, List.append_nil,
    ← List.append_assoc]
  rfl

/-- A field that may be left out, by its name. -/
lemma getD_lookup_fields (e : HistoryEntry) {kind key : String}
    (h : Fields.lookup key (e.required kind) = none) :
    (Fields.lookup key (e.fields kind)).getD .null
      = (Fields.lookup key e.optionals).getD .null := by
  have hkeys : (e.optionals.map Prod.fst).Nodup := by
    simp only [optionals, List.map_cons, List.map_nil]
    decide
  rw [fields_eq, Fields.lookup_append, h, Option.none_or, getD_lookup_filled hkeys]

/-- An entry is read back from its stored form. -/
theorem ofFields_fields {e : HistoryEntry} {kind : TxKind} (h : e.kind = .known kind) :
    ofFields (e.fields (Vocabulary.name kind)) = .ok e := by
  have hphase : (Fields.lookup "phase" (e.fields (Vocabulary.name kind))).getD .null
      = e.phaseValue := e.getD_lookup_fields rfl
  have hhash : (Fields.lookup "hash" (e.fields (Vocabulary.name kind))).getD .null = e.hash :=
    e.getD_lookup_fields rfl
  have hlink : (Fields.lookup "explorerUrl" (e.fields (Vocabulary.name kind))).getD .null
      = e.link := e.getD_lookup_fields rfl
  have hreason : (Fields.lookup "reason" (e.fields (Vocabulary.name kind))).getD .null
      = e.reason := e.getD_lookup_fields rfl
  have hamount : need (e.fields (Vocabulary.name kind)) "amount" = .ok (.number e.amount) := rfl
  have hid : need (e.fields (Vocabulary.name kind)) "id" = .ok (.text e.id) := rfl
  have hkind : need (e.fields (Vocabulary.name kind)) "kind"
      = .ok (.text (Vocabulary.name kind)) := rfl
  have hdirection : need (e.fields (Vocabulary.name kind)) "direction"
      = .ok (.text (Vocabulary.name e.direction)) := rfl
  have hasset : need (e.fields (Vocabulary.name kind)) "asset"
      = .ok (.text (Vocabulary.name e.asset)) := rfl
  have hstatus : need (e.fields (Vocabulary.name kind)) "status"
      = .ok (.text (Vocabulary.name e.status)) := rfl
  have htimestamp : need (e.fields (Vocabulary.name kind)) "timestamp"
      = .ok (.text e.timestamp) := rfl
  rw [ofFields]
  simp only [hamount, hid, hkind, hdirection, hasset, hstatus, htimestamp, hphase, hhash, hlink,
    hreason, ok_bind, readAmount, readPhase_phaseValue, Vocabulary.read_kind,
    Vocabulary.read_direction, Vocabulary.read_asset, Vocabulary.read_status]
  rw [← h]
  rfl

/-! ### Plain entries -/

/-- The numbers in an entry. -/
def numbers (e : HistoryEntry) : List Number :=
  e.amount :: (e.hash.numbers ++ e.link.numbers ++ e.reason.numbers)

/-- The values left in an entry are well formed and have room, and its numbers have a property. -/
structure IsPlain (p : Number → Prop) (room : Nat) (e : HistoryEntry) : Prop where
  amount : p e.amount
  hash : e.hash.IsPlain p room
  link : e.link.IsPlain p room
  reason : e.reason.IsPlain p room

variable {p : Number → Prop} {room : Nat} {e : HistoryEntry}

lemma IsPlain.and {q : Number → Prop} (hp : e.IsPlain p room) (hq : ∀ n ∈ e.numbers, q n) :
    e.IsPlain (fun n => p n ∧ q n) room where
  amount := ⟨hp.amount, hq _ (by simp [numbers])⟩
  hash := hp.hash.and fun n hn => hq n (by simp [numbers, hn])
  link := hp.link.and fun n hn => hq n (by simp [numbers, hn])
  reason := hp.reason.and fun n hn => hq n (by simp [numbers, hn])

lemma IsPlain.imp {q : Number → Prop} (hp : e.IsPlain p room) (h : ∀ n, p n → q n) :
    e.IsPlain q room where
  amount := h _ hp.amount
  hash := hp.hash.imp h
  link := hp.link.imp h
  reason := hp.reason.imp h

lemma nodup_keys (e : HistoryEntry) (kind : String) : ((e.fields kind).map Prod.fst).Nodup := by
  have hall : ((e.required kind ++ e.optionals).map Prod.fst).Nodup := by
    simp only [required, optionals, List.map_append, List.map_cons, List.map_nil]
    decide
  refine List.Nodup.sublist ?_ hall
  rw [fields_eq, List.map_append, List.map_append]
  exact (List.Sublist.refl _).append (keys_filled _)

/-- The stored form of a plain entry is plain. -/
lemma IsPlain.isPlain_fields (h : e.IsPlain p room) (kind : String) :
    (Value.object (e.fields kind)).IsPlain p (room + 1) := by
  rw [Value.isPlain_object]
  refine ⟨Nat.le_add_left 1 room, nodup_keys e kind, ?_⟩
  have hamount : (Value.number e.amount).IsPlain p room := Value.isPlain_number.2 h.amount
  have hphase : e.phaseValue.IsPlain p room := by
    unfold phaseValue
    cases e.phase with
    | none => exact Value.isPlain_null
    | some _ => exact Value.isPlain_text _
  have hrequired : ∀ f ∈ e.required kind, f.2.IsPlain p room := by
    simp [required, Value.isPlain_text, hamount]
  have hoptionals : ∀ f ∈ e.optionals, f.2.IsPlain p room := by
    simp [optionals, hphase, h.hash, h.link, h.reason]
  intro f hf
  rw [fields_eq] at hf
  rcases List.mem_append.1 hf with hf | hf
  · exact hrequired f hf
  · exact isPlain_filled hoptionals f hf

/-- What was left in a plain stored form is plain. -/
lemma isPlain_of_ofFields {fields : List (String × Value)}
    (hf : (Value.object fields).IsPlain p room) (h : ofFields fields = .ok e) :
    e.IsPlain p (room - 1) := by
  have hfield : ∀ key v, Fields.lookup key fields = some v → v.IsPlain p (room - 1) :=
    fun key v hv => (Value.isPlain_object.1 hf).2.2 (key, v) (Fields.mem_of_lookup hv)
  have hgetD : ∀ key, ((Fields.lookup key fields).getD .null).IsPlain p (room - 1) := by
    intro key
    cases hl : Fields.lookup key fields with
    | none => exact Value.isPlain_null
    | some v => exact hfield key v hl
  obtain ⟨-, hamount, hhash, hlink, hreason⟩ := ofFields_eq_ok h
  refine ⟨Value.isPlain_number.1 (hfield "amount" _ hamount), ?_, ?_, ?_⟩
  · rw [hhash]
    exact hgetD "hash"
  · rw [hlink]
    exact hgetD "explorerUrl"
  · rw [hreason]
    exact hgetD "reason"

end HistoryEntry

end StellarWallet
