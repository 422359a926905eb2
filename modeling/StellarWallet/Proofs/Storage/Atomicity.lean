import Mathlib.Tactic.Common
import StellarWallet.Storage.Json

/-!
Writes of a slot are all or nothing.

A write that fails leaves the text of the slot as it was, even when its draft stays behind. A slot
that can be read reads as empty after it was removed, whether or not there was something to remove.
-/

namespace StellarWallet

namespace Directory

variable {d d' : Directory}

lemma eq_of_write {name : String} {content : List UInt8} (h : d.write name content = .ok d') :
    d' = Fields.put name (.file content) d := by
  unfold write at h
  split at h
  · cases h
  · split at h
    · cases h
    · exact (Except.ok.inj h).symm

lemma eq_of_move {source target : String} (h : d.move source target = .ok d') :
    (d.item? source = none ∧ d' = d) ∨
      ∃ e, d.item? source = some e ∧ fits target = true ∧
        d' = Fields.put target e (Fields.erase source d) := by
  unfold move at h
  split at h
  · next hnone => exact Or.inl ⟨hnone, (Except.ok.inj h).symm⟩
  · next e he =>
    split at h
    · cases h
    · next hfits =>
      split at h
      · cases h
      · exact Or.inr ⟨e, he, by simpa using hfits, (Except.ok.inj h).symm⟩

lemma eq_of_remove {name : String} (h : d.remove name = .ok d') : d' = Fields.erase name d := by
  unfold remove at h
  split at h
  · cases h
  · split at h
    · cases h
    · exact (Except.ok.inj h).symm

end Directory

namespace SlotFile

variable {d : Directory} {key text : String} {fault : Fault}

/-- A draft never stands in the place of a slot, not even of another one. -/
lemma draftName_ne_name (key other : String) : draftName key ≠ name other := by
  intro h
  -- The last characters differ.
  have hlast := congrArg (fun s : String => s.toList.getLast?) h
  simp [draftName, name, extension] at hlast

/-- A slot that can be read has a name that fits. -/
lemma fits_of_get {text? : Option String} (h : get d key = .ok text?) :
    Directory.fits (name key) = true := by
  unfold get at h
  split at h
  · cases h
  · next hfits => simpa using hfits

/-- A write touches no other names than those of the slot and of its draft. -/
lemma item?_set_of_ne {n : String} (hn : n ≠ name key) (hd : n ≠ draftName key) :
    (set d key text).2.item? n = d.item? n := by
  unfold set
  split
  · rfl
  · next drafted hdraft =>
    have hdrafted : drafted.item? n = d.item? n := by
      rw [Directory.eq_of_write hdraft]
      exact Fields.lookup_put_of_ne hd _ _
    split
    · exact hdrafted
    · next moved hmove =>
      rw [← hdrafted]
      obtain ⟨-, rfl⟩ | ⟨e, -, -, rfl⟩ := Directory.eq_of_move hmove
      · rfl
      · exact (Fields.lookup_put_of_ne hn _ _).trans (Fields.lookup_erase_of_ne hd _)

/-- A write that fails leaves the file of the slot as it was. -/
lemma item?_set_of_error (h : (set d key text).1 = .error fault) :
    (set d key text).2.item? (name key) = d.item? (name key) := by
  unfold set at h ⊢
  split
  · rfl
  · next drafted hdraft =>
    rw [hdraft] at h
    dsimp only at h
    split at h
    -- The draft could not be moved and stays, which does not touch the file of the slot.
    · rw [Directory.eq_of_write hdraft]
      exact Fields.lookup_put_of_ne (draftName_ne_name key key).symm _ _
    · cases h

/-- A write that fails leaves the text as it was. -/
lemma get_of_set_error (h : (set d key text).1 = .error fault) :
    get (set d key text).2 key = get d key := by
  unfold get
  rw [item?_set_of_error h]

/-- What can be read reads as empty after it was removed. -/
lemma get_remove {text? : Option String} (h : get d key = .ok text?) :
    (∀ d', d.remove (name key) = .ok d' → get d' key = .ok none) ∧
      (∀ fault, d.remove (name key) = .error fault → get d key = .ok none) := by
  have hfits := fits_of_get h
  constructor
  · intro d' hd'
    have hitem : Directory.item? (Fields.erase (name key) d) (name key) = none :=
      Fields.lookup_erase_self _ _
    obtain rfl := Directory.eq_of_remove hd'
    rw [get, hfits, hitem]
    rfl
  · intro fault hf
    rw [Directory.remove, hfits] at hf
    rw [if_neg (by decide)] at hf
    split at hf
    · next hfolder =>
      rw [get, hfits, hfolder]
      rfl
    · cases hf

end SlotFile

namespace Storage

variable {s : Storage} {key text : String} {fault : Fault}

lemma get_of_set_error (h : (s.set key text).1 = .error fault) :
    (s.set key text).2.get key = s.get key := by
  unfold set at h ⊢
  split
  · rfl
  · next hr =>
    rw [hr] at h
    dsimp only at h
    split at h
    · cases h
    · next d hd =>
      unfold get
      rw [hd]
      exact SlotFile.get_of_set_error h

/-- A value that cannot be written leaves the text of its slot as it was. -/
lemma get_of_writeJson_error {v : Value} (h : (s.writeJson key v).1 = .error fault) :
    (s.writeJson key v).2.get key = s.get key := by
  unfold writeJson at h ⊢
  split
  · next text ht =>
    rw [ht] at h
    exact get_of_set_error h
  · rfl

/-- What can be read reads as empty after it was removed. -/
lemma get_remove {text? : Option String} (h : s.get key = .ok text?) :
    (s.remove key).2.get key = .ok none := by
  unfold get at h
  unfold remove
  split at h
  · next slots hs =>
    unfold get
    dsimp only
    rw [Fields.lookup_erase_self]
  · next d hd =>
    obtain ⟨hok, herror⟩ := SlotFile.get_remove h
    split
    · next d' hd' => exact hok d' hd'
    · next fault hf =>
      unfold get
      rw [hd]
      exact herror fault hf

/-- A slot from which a value was read can be read. -/
lemma get_of_readJson {v : Value} (h : s.readJson key = .ok v) :
    ∃ text?, s.get key = .ok text? := by
  rw [readJson] at h
  cases hget : s.get key with
  | error fault =>
    rw [hget] at h
    cases h
  | ok text? => exact ⟨text?, rfl⟩

lemma readJson_remove {v : Value} (h : s.readJson key = .ok v) :
    (s.remove key).2.readJson key = .ok .null := by
  obtain ⟨text?, hget⟩ := get_of_readJson h
  rw [readJson, get_remove hget]
  rfl

end Storage

end StellarWallet
