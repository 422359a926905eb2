import StellarWallet.Proofs.Storage.OtherSlots
import StellarWallet.Proofs.Storage.ReadBack

/-!
Slots that can be written.

A slot can be written if writes are not refused and, where slots are files, neither its file nor its
draft has a name that is too long or that of a folder. Every value with a JSON form is then written,
and the slot can be written again.
-/

namespace StellarWallet

namespace Value

mutual
lemma isJson_of_isWellFormed : ∀ {v : Value}, v.IsWellFormed → v.isJson = true
  | .null, _ | .bool _, _ | .number _, _ | .text _, _ => rfl
  | .list _, h => areJson_of_areWellFormed h
  | .object _, h => fieldsAreJson_of_fieldsWellFormed h.2

lemma areJson_of_areWellFormed : ∀ {items : List Value}, AreWellFormed items → areJson items = true
  | [], _ => rfl
  | _ :: _, h => Bool.and_eq_true_iff.2
      ⟨isJson_of_isWellFormed h.1, areJson_of_areWellFormed h.2⟩

lemma fieldsAreJson_of_fieldsWellFormed : ∀ {fields : List (String × Value)},
    FieldsWellFormed fields → fieldsAreJson fields = true
  | [], _ => rfl
  | _ :: _, h => Bool.and_eq_true_iff.2
      ⟨isJson_of_isWellFormed h.1, fieldsAreJson_of_fieldsWellFormed h.2⟩
end

end Value

namespace SlotFile

structure IsWritable (d : Directory) (key : String) : Prop where
  fits_draft : Directory.fits (draftName key) = true
  fits : Directory.fits (name key) = true
  draft : d.item? (draftName key) ≠ some .folder
  file : d.item? (name key) ≠ some .folder

variable {d : Directory} {key other : String}

lemma IsWritable.set_eq_ok (h : IsWritable d key) (text : String) :
    (set d key text).1 = .ok () := by
  set content : DirectoryEntry := .file (Utf8.encode text.toList) with hcontent
  have hdraft : d.write (draftName key) (Utf8.encode text.toList)
      = .ok (Fields.put (draftName key) content d) := by
    rw [Directory.write, h.fits_draft, if_neg h.draft]
    rfl
  have hfile : Directory.item? (Fields.put (draftName key) content d) (name key)
      ≠ some .folder := by
    rw [Directory.item?, Fields.lookup_put_of_ne (draftName_ne_name key key).symm]
    exact h.file
  have hmove : Directory.move (Fields.put (draftName key) content d) (draftName key) (name key)
      = .ok (Fields.put (name key) content
          (Fields.erase (draftName key) (Fields.put (draftName key) content d))) := by
    have hitem : Directory.item? (Fields.put (draftName key) content d) (draftName key)
        = some content := Fields.lookup_put_self _ _ _
    rw [Directory.move, hitem]
    dsimp only
    rw [h.fits, if_neg hfile]
    rfl
  rw [SlotFile.set, hdraft]
  dsimp only
  rw [hmove]

/-- No write makes a slot unwritable, not even that of another slot. -/
lemma IsWritable.set (h : IsWritable d key) (text : String) :
    IsWritable (set d other text).2 key where
  fits_draft := h.fits_draft
  fits := h.fits
  draft := fun hfolder => h.draft (folder_of_set hfolder)
  file := fun hfolder => h.file (folder_of_set hfolder)

lemma IsWritable.erase (h : IsWritable d key) (n : String) :
    IsWritable (Fields.erase n d) key where
  fits_draft := h.fits_draft
  fits := h.fits
  draft := fun hfolder => h.draft (Directory.folder_of_erase hfolder)
  file := fun hfolder => h.file (Directory.folder_of_erase hfolder)

end SlotFile

namespace Storage

/-- Every text can be written to the slot, and others after it. -/
def IsWritable (s : Storage) (key : String) : Prop :=
  s.refusal = none ∧
    match s.backend with
    | .memory _ => True
    | .files d => SlotFile.IsWritable d key

variable {s : Storage} {key other : String}

lemma IsWritable.set_eq_ok (h : s.IsWritable key) (text : String) :
    (s.set key text).1 = .ok () := by
  obtain ⟨hrefusal, hbackend⟩ := h
  rw [Storage.set, hrefusal]
  cases hb : s.backend with
  | memory slots => rfl
  | files d =>
    rw [hb] at hbackend
    exact hbackend.set_eq_ok text

lemma IsWritable.set (h : s.IsWritable key) (text : String) :
    (s.set other text).2.IsWritable key := by
  obtain ⟨hrefusal, hbackend⟩ := h
  refine ⟨(refusal_set s other text).trans hrefusal, ?_⟩
  rw [Storage.set, hrefusal]
  cases hb : s.backend with
  | memory slots => trivial
  | files d =>
    rw [hb] at hbackend
    exact hbackend.set text

lemma IsWritable.writeJson (h : s.IsWritable key) (v : Value) :
    (s.writeJson other v).2.IsWritable key := by
  unfold Storage.writeJson
  split
  · exact h.set _
  · exact h

/-- A plain value is written to a slot that can be written, and read from it. -/
lemma IsWritable.writeJson_eq_ok (h : s.IsWritable key) {v : Value}
    (hv : v.IsPlain Json.IsReadable s.reader.depth) :
    (s.writeJson key v).1 = .ok () ∧ (s.writeJson key v).2.readJson key = .ok v := by
  have hwrite : s.writeJson key v = s.set key (String.ofList (Json.encode v)) := by
    rw [Storage.writeJson, Json.write?, Value.isJson_of_isWellFormed hv.wellFormed]
    rfl
  have hok : (s.writeJson key v).1 = .ok () := by
    rw [hwrite]
    exact h.set_eq_ok _
  exact ⟨hok, readJson_writeJson hv hok⟩

lemma IsWritable.remove (h : s.IsWritable key) : (s.remove other).2.IsWritable key := by
  obtain ⟨hrefusal, hbackend⟩ := h
  unfold Storage.remove
  split
  · exact ⟨hrefusal, trivial⟩
  · next d hd =>
    rw [hd] at hbackend
    split
    · next d' hd' =>
      rw [Directory.eq_of_remove hd']
      exact ⟨hrefusal, hbackend.erase _⟩
    · exact ⟨hrefusal, by rw [hd]; exact hbackend⟩

lemma IsWritable.remove_eq_ok (h : s.IsWritable key) : (s.remove key).1 = .ok () := by
  obtain ⟨-, hbackend⟩ := h
  unfold Storage.remove
  split
  · rfl
  · next d hd =>
    rw [hd] at hbackend
    have hremove : d.remove (SlotFile.name key) = .ok (Fields.erase (SlotFile.name key) d) := by
      rw [Directory.remove, hbackend.fits, if_neg hbackend.file]
      rfl
    rw [hremove]

end Storage

end StellarWallet
