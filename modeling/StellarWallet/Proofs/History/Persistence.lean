import StellarWallet.Proofs.History.Changes
import StellarWallet.Proofs.History.StoredForm
import StellarWallet.Proofs.Storage.ReadBack

/-!
The stored history is the history in memory.

As long as writes succeed, loading what is stored gives back the history, entry for entry and field
for field, whatever was stored at the start and whatever was added and dropped since.
-/

namespace StellarWallet

namespace HistoryEntry

variable {e : HistoryEntry} {es : List HistoryEntry} {v : Value} {vs : List Value}

lemma toValue_eq_ok (h : e.toValue = .ok v) :
    ∃ kind, e.kind = .known kind ∧ v = .object (e.fields (Vocabulary.name kind)) := by
  unfold toValue at h
  cases hk : e.kind with
  | known kind =>
    rw [hk] at h
    cases h
    exact ⟨kind, rfl, rfl⟩
  | foreign w =>
    rw [hk] at h
    cases h

/-- The entry of a stored form. -/
lemma readItem_of_toValue (h : e.toValue = .ok v) : History.readItem v = some (.ok e) := by
  obtain ⟨kind, hk, rfl⟩ := toValue_eq_ok h
  rw [History.readItem, ofFields_fields hk]

lemma isPlain_of_toValue {p : Number → Prop} {room : Nat} (hp : e.IsPlain p room)
    (h : e.toValue = .ok v) : v.IsPlain p (room + 1) := by
  obtain ⟨kind, -, rfl⟩ := toValue_eq_ok h
  exact hp.isPlain_fields _

lemma mapM_toValue_cons (h : (e :: es).mapM toValue = .ok vs) :
    ∃ v r, vs = v :: r ∧ e.toValue = .ok v ∧ es.mapM toValue = .ok r := by
  rw [List.mapM_cons] at h
  obtain ⟨v, hv, h⟩ := bind_eq_ok h
  obtain ⟨r, hr, h⟩ := bind_eq_ok h
  cases h
  exact ⟨v, r, rfl, hv, hr⟩

lemma readEntries_of_mapM (h : es.mapM toValue = .ok vs) :
    History.readEntries (.list vs) = es := by
  induction es generalizing vs with
  | nil =>
    cases h
    rfl
  | cons e es ih =>
    obtain ⟨v, r, rfl, hv, hr⟩ := mapM_toValue_cons h
    have hrest := ih hr
    unfold History.readEntries at hrest ⊢
    dsimp only at hrest ⊢
    rw [List.filterMap_cons_some (b := e) (by rw [readItem_of_toValue hv]; rfl), hrest]

lemma isPlain_of_mapM {p : Number → Prop} {room : Nat} (hp : ∀ e ∈ es, e.IsPlain p room)
    (h : es.mapM toValue = .ok vs) : (Value.list vs).IsPlain p (room + 2) := by
  rw [Value.isPlain_list]
  refine ⟨Nat.le_add_left 1 (room + 1), ?_⟩
  induction es generalizing vs with
  | nil =>
    cases h
    simp
  | cons e es ih =>
    obtain ⟨v, r, rfl, hv, hr⟩ := mapM_toValue_cons h
    rw [List.forall_mem_cons]
    exact ⟨isPlain_of_toValue (hp e (by simp)) hv, ih (fun x hx => hp x (by simp [hx])) hr⟩

end HistoryEntry

namespace History

open HistoryChange

variable {h : History} {storage : Storage} {key : String} {maxItems : Int}

/-- The entry reads back from a list of entries that a reader reads. -/
def ReadsBack (reader : Json.Reader) (e : HistoryEntry) : Prop :=
  e.IsPlain Json.IsReadable (reader.depth - 2)

/-- The list of the stored forms of entries that read back. -/
lemma isPlain_of_readsBack {reader : Json.Reader} {es : List HistoryEntry} {vs : List Value}
    (hp : ∀ e ∈ es, ReadsBack reader e) (h : es.mapM HistoryEntry.toValue = .ok vs) :
    (Value.list vs).IsPlain Json.IsReadable reader.depth := by
  have hroom : reader.depth - 2 + 2 = reader.depth := Nat.sub_add_cancel reader.two_le_depth
  rw [← hroom]
  exact HistoryEntry.isPlain_of_mapM hp h

lemma toValue_eq_ok {v : Value} (hv : h.toValue = .ok v) :
    ∃ vs, v = .list vs ∧ h.entries.mapM HistoryEntry.toValue = .ok vs := by
  unfold toValue at hv
  cases hm : h.entries.mapM HistoryEntry.toValue with
  | error fault =>
    rw [hm] at hv
    cases hv
  | ok vs =>
    rw [hm] at hv
    cases hv
    exact ⟨vs, rfl, rfl⟩

/-- **What is written is loaded.** A history of plain entries that was written is what a new one
loads from the same slot with the same limit. -/
theorem load_of_write (hcut : atMost h.maxItems h.entries = h.entries)
    (hp : ∀ e ∈ h.entries, ReadsBack h.storage.reader e) (hw : h.write.1 = .ok ()) :
    load h.write.2.storage h.key h.maxItems = .ok h.write.2 := by
  cases hv : h.toValue with
  | error fault =>
    rw [write, hv] at hw
    cases hw
  | ok v =>
    have hwrite : h.write = ((h.storage.writeJson h.key v).1,
        { h with storage := (h.storage.writeJson h.key v).2 }) := by
      rw [write, hv]
    rw [hwrite] at hw ⊢
    obtain ⟨vs, rfl, hvs⟩ := toValue_eq_ok hv
    have hread := Storage.readJson_writeJson (isPlain_of_readsBack hp hvs) hw
    rw [load, hread, ok_bind, HistoryEntry.readEntries_of_mapM hvs, hcut]
    rfl

/-! ### Runs -/

/-- The history with a changed list that is not written yet. -/
def changed (h : History) (c : HistoryChange) : History :=
  { h with entries := c.apply h.maxItems h.entries }

/-- The history after a change. -/
def change (h : History) : HistoryChange → History
  | .added e => (h.push e).2
  | .cleared => h.clear.2

/-- The history after some changes. -/
def changes (h : History) (cs : List HistoryChange) : History := cs.foldl change h

/-- The writes of some changes succeed. -/
def WritesAll (h : History) : List HistoryChange → Prop
  | [] => True
  | c :: cs => (h.changed c).write.1 = .ok () ∧ (h.change c).WritesAll cs

lemma save_of_write (hw : h.write.1 = .ok ()) : h.save = h.write := by
  obtain ⟨outcome, h', hh⟩ : ∃ outcome h', h.write = (outcome, h') := ⟨_, _, rfl⟩
  rw [hh] at hw
  cases hw
  rw [save, hh]

lemma change_of_write {c : HistoryChange} (hw : (h.changed c).write.1 = .ok ()) :
    h.change c = (h.changed c).write.2 := by
  have hs := save_of_write hw
  cases c with
  | added e =>
    rw [← hs]
    rfl
  | cleared =>
    rw [← hs]
    rfl

lemma reader_write (h : History) : h.write.2.storage.reader = h.storage.reader := by
  unfold write
  split
  · rfl
  · exact Storage.reader_writeJson _ _ _

lemma write_eq (h : History) : h.write.2 = { h with storage := h.write.2.storage } := by
  unfold write
  split <;> rfl

/-- What holds of a history after some changes of `h₀`, the newest first, that were written. -/
structure IsStored (h₀ : History) (seen : List HistoryChange) (h : History) : Prop where
  key : h.key = h₀.key
  maxItems : h.maxItems = h₀.maxItems
  reader : h.storage.reader = h₀.storage.reader
  entries : h.entries = atMost h₀.maxItems (visible h₀.entries seen)
  plain : ∀ e ∈ h.entries, ReadsBack h₀.storage.reader e
  load : load h.storage h.key h.maxItems = .ok h

variable {h₀ : History} {seen : List HistoryChange}

/-- What a change that is written keeps. -/
lemma IsStored.change (hs : IsStored h₀ seen h) (hm : 0 ≤ h₀.maxItems) {c : HistoryChange}
    (hc : ∀ e, c = .added e → ReadsBack h₀.storage.reader e)
    (hw : (h.changed c).write.1 = .ok ()) : IsStored h₀ (c :: seen) (h.change c) := by
  have hentries : (h.changed c).entries = atMost h₀.maxItems (visible h₀.entries (c :: seen)) := by
    rw [changed, hs.maxItems, hs.entries, apply_visible hm]
  have hplain : ∀ e ∈ (h.changed c).entries, ReadsBack h₀.storage.reader e := by
    intro e he
    cases c with
    | added x =>
      rcases List.mem_cons.1 ((atMost_sublist _ _).subset he) with rfl | he
      · exact hc e rfl
      · exact hs.plain e he
    | cleared => cases he
  have hcut : atMost (h.changed c).maxItems (h.changed c).entries = (h.changed c).entries := by
    rw [hentries, show (h.changed c).maxItems = h₀.maxItems from hs.maxItems, atMost_atMost hm]
  have hload := load_of_write hcut (by rw [changed, hs.reader]; exact hplain) hw
  have hreader : (h.changed c).write.2.storage.reader = h₀.storage.reader :=
    (reader_write _).trans hs.reader
  rw [change_of_write hw, write_eq]
  rw [write_eq] at hload
  exact ⟨hs.key, hs.maxItems, hreader, hentries, hplain, hload⟩

lemma IsStored.changes (hs : IsStored h₀ seen h) (hm : 0 ≤ h₀.maxItems) {cs : List HistoryChange}
    (hcs : ∀ e, .added e ∈ cs → ReadsBack h₀.storage.reader e) (hw : h.WritesAll cs) :
    IsStored h₀ (cs.reverse ++ seen) (h.changes cs) := by
  induction cs generalizing h seen with
  | nil => exact hs
  | cons c cs ih =>
    have hc : ∀ e, c = .added e → ReadsBack h₀.storage.reader e := by
      rintro e rfl
      exact hcs e (by simp)
    have hrest := ih (hs.change hm hc hw.1) (fun e he => hcs e (by simp [he])) hw.2
    rw [List.reverse_cons, List.append_assoc, List.singleton_append]
    exact hrest

/-- A number that was read is read again if its text reads back. -/
lemma isReadable_of_isBounded {n : Number} (hb : Json.IsBounded n)
    (hr : ∀ x, n = .real x → Json.ReadsBack x) : Json.IsReadable n := by
  cases n with
  | whole n => exact hb
  | real x => exact hr x rfl

/-- Entries that were loaded are plain. -/
lemma isPlain_of_load (hload : load storage key maxItems = .ok h) :
    ∀ e ∈ h.entries, e.IsPlain Json.IsBounded (storage.reader.depth - 2) := by
  obtain ⟨v, hv, rfl⟩ := load_eq hload
  intro e he
  obtain ⟨items, fields, rfl, hitem, hf⟩ := mem_readEntries ((atMost_sublist _ _).subset he)
  have hplain := (Value.isPlain_list.1 (Storage.isPlain_of_readJson hv)).2 _ hitem
  exact HistoryEntry.isPlain_of_ofFields hplain hf

/-- A slot that can be read is loaded, whatever its text, if that does not go too deep. -/
lemma load_of_get {text? : Option String} (hslot : storage.get key = .ok text?)
    (hroom : ∀ text ∈ text?, storage.reader.HasRoom text) :
    load storage key maxItems = .ok
      { storage, key, maxItems
        entries :=
          atMost maxItems (readEntries ((text?.bind storage.reader.read?).getD .null)) } := by
  rw [load, Storage.readJson_of_get hslot hroom]
  rfl

lemma isStored_of_load (hload : load storage key maxItems = .ok h₀) (hm : 0 ≤ maxItems)
    (hreals : ∀ e ∈ h₀.entries, ∀ x, .real x ∈ e.numbers → Json.ReadsBack x) :
    IsStored h₀ [] h₀ := by
  have hplain : ∀ e ∈ h₀.entries, ReadsBack storage.reader e := by
    intro e he
    have hand := (isPlain_of_load hload e he).and fun n hn x (hx : n = .real x) =>
      hreals e he x (hx ▸ hn)
    exact hand.imp fun n hn => isReadable_of_isBounded hn.1 hn.2
  obtain ⟨v, -, rfl⟩ := load_eq hload
  exact ⟨rfl, rfl, rfl, (atMost_atMost hm _).symm, hplain, hload⟩

/-- **The stored history is the history in memory.** Whatever text was in the slot at the start, if
any, a history is loaded unless that goes too deep; after any changes whose writes succeed the list
in memory is the front of the entries added since the last drop, the newest first, and of what was
loaded if nothing was dropped; and what a new history loads from the slot is the very same
history. -/
theorem load_changes {text? : Option String} (hslot : storage.get key = .ok text?)
    (hroom : ∀ text ∈ text?, storage.reader.HasRoom text) (hm : 0 ≤ maxItems) :
    ∃ h₀, load storage key maxItems = .ok h₀ ∧
      ∀ cs, (∀ e ∈ h₀.entries, ∀ x, .real x ∈ e.numbers → Json.ReadsBack x) →
        (∀ e, .added e ∈ cs → ReadsBack storage.reader e) → h₀.WritesAll cs →
        (h₀.changes cs).entries = atMost maxItems (visible h₀.entries cs.reverse) ∧
          load (h₀.changes cs).storage key maxItems = .ok (h₀.changes cs) := by
  obtain ⟨h₀, hload⟩ : ∃ h₀, load storage key maxItems = .ok h₀ :=
    ⟨_, load_of_get hslot hroom⟩
  refine ⟨h₀, hload, ?_⟩
  intro cs hreals hcs hw
  obtain ⟨v, -, hh₀⟩ := load_eq hload
  have hkey : h₀.key = key := by rw [hh₀]
  have hmax : h₀.maxItems = maxItems := by rw [hh₀]
  have hreader : h₀.storage.reader = storage.reader := by rw [hh₀]
  have h := (isStored_of_load hload hm hreals).changes (by rw [hmax]; exact hm)
    (by rw [hreader]; exact hcs) hw
  rw [List.append_nil] at h
  refine ⟨by rw [h.entries, hmax], ?_⟩
  have hl := h.load
  rwa [h.key, h.maxItems, hkey, hmax] at hl

/-- Two payments with a drop between them, on a slot with an empty list. -/
theorem load_payments :
    let storage : Storage := { backend := .memory [("history", "[]")] }
    let h₀ : History := { storage, key := "history", maxItems := 2 }
    let e : HistoryEntry :=
      { id := "1", kind := .known .classic, direction := .withdraw, asset := .xlm
        amount := .whole 5, status := .success, timestamp := "now", hash := .text "ab" }
    let cs : List HistoryChange := [.added e, .cleared, .added e]
    storage.get "history" = .ok (some "[]") ∧ storage.reader.HasRoom "[]" ∧
      load storage "history" 2 = .ok h₀ ∧ h₀.WritesAll cs ∧
      (h₀.changes cs).entries = atMost 2 (visible h₀.entries cs.reverse) ∧
      load (h₀.changes cs).storage "history" 2 = .ok (h₀.changes cs) := by
  intro storage h₀ e cs
  have hslot : storage.get "history" = .ok (some "[]") := rfl
  have hload : load storage "history" 2 = .ok h₀ := rfl
  have hw : h₀.WritesAll cs := ⟨rfl, rfl, rfl, trivial⟩
  have hamount : Json.IsReadable (.whole 5) := by
    unfold Json.IsReadable Json.IsShort
    decide
  have he : ReadsBack .standard e :=
    ⟨hamount, Value.isPlain_text _, Value.isPlain_null, Value.isPlain_null⟩
  have hcs : ∀ x, HistoryChange.added x ∈ cs → ReadsBack .standard x := by
    intro x hx
    have hxe : x = e := by simpa [cs] using hx
    rw [hxe]
    exact he
  have hroom : ∀ text ∈ some "[]", storage.reader.HasRoom text := by
    rintro text ⟨⟩
    exact Json.Reader.hasRoom_of_isOk rfl
  obtain ⟨h, hh, hruns⟩ := load_changes hslot hroom (by decide : (0 : Int) ≤ 2)
  obtain rfl : h₀ = h := Except.ok.inj (hload.symm.trans hh)
  exact ⟨hslot, hroom _ rfl, hload, hw, hruns cs (by simp [h₀]) hcs hw⟩

end History

end StellarWallet
