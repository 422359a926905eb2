import StellarWallet.Proofs.Storage.Atomicity
import StellarWallet.Proofs.Storage.Refusal

/-!
What using one slot leaves of the others.

Writing or removing a slot changes neither the text of a slot with another file name nor, byte for
byte, its file; and a use that fails does not even change its own slot.
-/

namespace StellarWallet

namespace Directory

variable {d : Directory} {n other : String}

lemma folder_of_put {content : List UInt8}
    (h : item? (Fields.put other (.file content) d) n = some .folder) :
    d.item? n = some .folder := by
  by_cases hn : n = other
  · rw [hn, item?, Fields.lookup_put_self] at h
    cases h
  · rwa [item?, Fields.lookup_put_of_ne hn] at h

lemma folder_of_erase (h : item? (Fields.erase other d) n = some .folder) :
    d.item? n = some .folder := by
  by_cases hn : n = other
  · rw [hn, item?, Fields.lookup_erase_self] at h
    cases h
  · rwa [item?, Fields.lookup_erase_of_ne hn] at h

end Directory

namespace SlotFile

variable {d : Directory} {key text : String}

/-- A write makes no folder. -/
lemma folder_of_set {n : String} (h : (set d key text).2.item? n = some .folder) :
    d.item? n = some .folder := by
  unfold set at h
  split at h
  · exact h
  · next drafted hdraft =>
    obtain rfl := Directory.eq_of_write hdraft
    split at h
    · exact Directory.folder_of_put h
    · next moved hmove =>
      obtain ⟨-, rfl⟩ | ⟨e, he, -, rfl⟩ := Directory.eq_of_move hmove
      · exact Directory.folder_of_put h
      · obtain rfl := Option.some.inj (he.symm.trans (Fields.lookup_put_self _ _ _))
        exact Directory.folder_of_put (Directory.folder_of_erase (Directory.folder_of_put h))

end SlotFile

namespace Storage

/-- What a slot holds: its text in memory, or what stands under the name of its file. -/
def content (s : Storage) (key : String) : Option String ⊕ Option DirectoryEntry :=
  match s.backend with
  | .memory slots => .inl (Fields.lookup key slots)
  | .files d => .inr (d.item? (SlotFile.name key))

variable {key other text : String} {s t : Storage}

lemma content_memory {slots : List (String × String)} (h : s.backend = .memory slots) :
    s.content key = .inl (Fields.lookup key slots) := by
  rw [content, h]

lemma content_files {d : Directory} (h : s.backend = .files d) :
    s.content key = .inr (d.item? (SlotFile.name key)) := by
  rw [content, h]

/-- The same content is read the same. -/
lemma get_congr (h : t.content key = s.content key) : t.get key = s.get key := by
  cases hs : s.backend with
  | memory slots =>
    rw [content_memory hs] at h
    cases ht : t.backend with
    | memory slots' =>
      rw [content_memory ht] at h
      rw [get, get, hs, ht]
      exact congrArg Except.ok (Sum.inl.inj h)
    | files d' =>
      rw [content_files ht] at h
      cases h
  | files d =>
    rw [content_files hs] at h
    cases ht : t.backend with
    | memory slots' =>
      rw [content_memory ht] at h
      cases h
    | files d' =>
      rw [content_files ht] at h
      rw [get, get, hs, ht]
      dsimp only
      rw [SlotFile.get, SlotFile.get, Sum.inr.inj h]

lemma readJson_congr (h : t.content key = s.content key) (hr : t.reader = s.reader) :
    t.readJson key = s.readJson key := by
  rw [readJson, readJson, get_congr h, hr]

/-! ### Writing -/

lemma content_set_of_ne (h : SlotFile.name other ≠ SlotFile.name key) :
    (s.set key text).2.content other = s.content other := by
  have hkey : other ≠ key := fun he => h (congrArg SlotFile.name he)
  unfold set
  split
  · rfl
  · split
    · next slots hs =>
      rw [content_memory hs]
      exact congrArg Sum.inl (Fields.lookup_put_of_ne hkey _ _)
    · next d hs =>
      rw [content_files hs]
      exact congrArg Sum.inr
        (SlotFile.item?_set_of_ne h (SlotFile.draftName_ne_name key other).symm)

lemma content_set_of_error {fault : Fault} (h : (s.set key text).1 = .error fault) :
    (s.set key text).2.content key = s.content key := by
  unfold set at h ⊢
  split at h
  · rfl
  · split at h
    · cases h
    · next d hs =>
      rw [content_files hs]
      exact congrArg Sum.inr (SlotFile.item?_set_of_error h)

lemma content_writeJson_of_ne (h : SlotFile.name other ≠ SlotFile.name key) (v : Value) :
    (s.writeJson key v).2.content other = s.content other := by
  unfold writeJson
  split
  · exact content_set_of_ne h
  · rfl

lemma content_writeJson_of_error {v : Value} {fault : Fault}
    (h : (s.writeJson key v).1 = .error fault) :
    (s.writeJson key v).2.content key = s.content key := by
  unfold writeJson at h ⊢
  split at h
  · exact content_set_of_error h
  · rfl

/-! ### Removing -/

lemma content_remove_of_ne (h : SlotFile.name other ≠ SlotFile.name key) :
    (s.remove key).2.content other = s.content other := by
  have hkey : other ≠ key := fun he => h (congrArg SlotFile.name he)
  unfold remove
  split
  · next slots hs =>
    rw [content_memory hs]
    exact congrArg Sum.inl (Fields.lookup_erase_of_ne hkey _)
  · next d hs =>
    split
    · next d' hd' =>
      rw [content_files hs, Directory.eq_of_remove hd']
      exact congrArg Sum.inr (Fields.lookup_erase_of_ne h _)
    · rfl

lemma content_remove_of_error {fault : Fault} (h : (s.remove key).1 = .error fault) :
    (s.remove key).2.content key = s.content key := by
  unfold remove at h ⊢
  split at h
  · cases h
  · split at h
    · cases h
    · rfl

/-! ### Both together -/

/-- The slots are the same but for that of `own`, and that too unless `done`. -/
structure OnlyChanges (s t : Storage) (own : String) (done : Prop) : Prop where
  reader : t.reader = s.reader
  others : ∀ {key}, SlotFile.name key ≠ SlotFile.name own → t.content key = s.content key
  undone : ¬ done → t.content own = s.content own

lemma OnlyChanges.of_eq {done : Prop} (h : t = s) : s.OnlyChanges t key done := by
  subst h
  exact ⟨rfl, fun _ => rfl, fun _ => rfl⟩

lemma OnlyChanges.mono {done done' : Prop} (h : s.OnlyChanges t key done) (hd : done → done') :
    s.OnlyChanges t key done' :=
  ⟨h.reader, h.others, fun hdone => h.undone fun hd' => hdone (hd hd')⟩

lemma onlyChanges_writeJson (s : Storage) (key : String) (v : Value) :
    s.OnlyChanges (s.writeJson key v).2 key ((s.writeJson key v).1 = .ok ()) where
  reader := reader_writeJson s key v
  others h := content_writeJson_of_ne h v
  undone hdone := by
    cases hw : (s.writeJson key v).1 with
    | error fault => exact content_writeJson_of_error hw
    | ok u => exact absurd hw hdone

lemma onlyChanges_remove (s : Storage) (key : String) :
    s.OnlyChanges (s.remove key).2 key ((s.remove key).1 = .ok ()) where
  reader := reader_remove s key
  others h := content_remove_of_ne h
  undone hdone := by
    cases hr : (s.remove key).1 with
    | error fault => exact content_remove_of_error hr
    | ok u => exact absurd hr hdone

end Storage

end StellarWallet
