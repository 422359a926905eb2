import StellarWallet.Proofs.Storage.Writable

/-!
What a stored text reads as.

In memory a text is read as it was stored. In a file every line end, be it a line feed, a carriage
return or the two together, is read as one line feed. So a text in a file comes back just if there
is no carriage return in it, and what was read of any other text comes back from then on.
-/

namespace StellarWallet

namespace SlotFile

variable {cs : List Char}

def isLineEnd (c : Char) : Bool := c = '\r' || c = '\n'

lemma return_notMem_unifyLineEnds (cs : List Char) : '\r' ∉ unifyLineEnds cs := by
  fun_induction unifyLineEnds cs with
  | case1 r ih | case2 r _ ih =>
    rw [List.mem_cons, not_or]
    exact ⟨by decide, ih⟩
  | case3 c r _ hc ih =>
    rw [List.mem_cons, not_or]
    exact ⟨fun h => hc h.symm, ih⟩
  | case4 => exact List.not_mem_nil

lemma unifyLineEnds_eq_self_iff : unifyLineEnds cs = cs ↔ '\r' ∉ cs := by
  refine ⟨fun h => ?_, unifyLineEnds_eq_self⟩
  rw [← h]
  exact return_notMem_unifyLineEnds cs

/-- Nothing but line ends is changed. -/
lemma filter_unifyLineEnds (cs : List Char) :
    (unifyLineEnds cs).filter (!isLineEnd ·) = cs.filter (!isLineEnd ·) := by
  fun_induction unifyLineEnds cs with
  | case1 r ih | case2 r _ ih => simpa [isLineEnd] using ih
  | case3 c r _ _ ih => rw [List.filter_cons, List.filter_cons, ih]
  | case4 => rfl

end SlotFile

namespace Storage

variable {s : Storage} {key text : String}

/-- The slots are kept in memory. -/
def InMemory (s : Storage) : Prop := ∃ slots, s.backend = .memory slots

/-- What a text reads as once it is stored. -/
def readForm (s : Storage) (text : String) : String :=
  match s.backend with
  | .memory _ => text
  | .files _ => String.ofList (SlotFile.unifyLineEnds text.toList)

lemma readForm_memory {slots : List (String × String)} (h : s.backend = .memory slots) :
    s.readForm text = text := by
  rw [readForm, h]

lemma readForm_files {d : Directory} (h : s.backend = .files d) :
    s.readForm text = String.ofList (SlotFile.unifyLineEnds text.toList) := by
  rw [readForm, h]

lemma readForm_set (s : Storage) (key text other : String) :
    (s.set key text).2.readForm other = s.readForm other := by
  unfold set
  split
  · rfl
  · cases hb : s.backend with
    | memory slots => rw [readForm_memory rfl, readForm_memory hb]
    | files d => rw [readForm_files rfl, readForm_files hb]

lemma get_set_eq (h : (s.set key text).1 = .ok ()) :
    (s.set key text).2.get key = .ok (some (s.readForm text)) := by
  unfold set at h ⊢
  split at h
  · cases h
  · split at h
    · next slots hb =>
      rw [readForm_memory hb]
      exact congrArg Except.ok (Fields.lookup_put_self key text slots)
    · next d hb =>
      rw [readForm_files hb]
      have hget := SlotFile.get_set_eq h
      rw [SlotFile.text?, Utf8.decode_encode] at hget
      exact hget

lemma readForm_eq_self_iff : s.readForm text = text ↔ s.InMemory ∨ '\r' ∉ text.toList := by
  cases hb : s.backend with
  | memory slots =>
    rw [readForm_memory hb]
    exact iff_of_true rfl (Or.inl ⟨slots, hb⟩)
  | files d =>
    have hmemory : ¬ s.InMemory := by
      rintro ⟨slots, hslots⟩
      exact StorageBackend.noConfusion (hb.symm.trans hslots)
    rw [readForm_files hb, or_iff_right hmemory, ← SlotFile.unifyLineEnds_eq_self_iff,
      ← String.toList_inj, String.toList_ofList]

/-- What was read of a text is read as it is. -/
lemma readForm_readForm (s : Storage) (text : String) :
    s.readForm (s.readForm text) = s.readForm text := by
  rw [readForm_eq_self_iff]
  cases hb : s.backend with
  | memory slots => exact Or.inl ⟨slots, hb⟩
  | files d =>
    rw [readForm_files hb, String.toList_ofList]
    exact Or.inr (SlotFile.return_notMem_unifyLineEnds _)

lemma filter_readForm (s : Storage) (text : String) :
    (s.readForm text).toList.filter (!SlotFile.isLineEnd ·)
      = text.toList.filter (!SlotFile.isLineEnd ·) := by
  cases hb : s.backend with
  | memory slots => rw [readForm_memory hb]
  | files d =>
    rw [readForm_files hb, String.toList_ofList]
    exact SlotFile.filter_unifyLineEnds text.toList

/-- What becomes of a text that is stored. -/
structure ComesBack (s : Storage) (key text : String) : Prop where
  stored : (s.set key text).1 = .ok ()
  read : (s.set key text).2.get key = .ok (some (s.readForm text))
  /-- Only a file changes a text, and only one with a carriage return. -/
  exact_iff : (s.set key text).2.get key = .ok (some text) ↔ s.InMemory ∨ '\r' ∉ text.toList
  /-- Nothing but line ends is changed. -/
  sameText : (s.readForm text).toList.filter (!SlotFile.isLineEnd ·)
    = text.toList.filter (!SlotFile.isLineEnd ·)
  /-- What was read comes back unchanged when it is stored in its turn. -/
  again : let read := (s.set key text).2.set key (s.readForm text)
    read.1 = .ok () ∧ read.2.get key = .ok (some (s.readForm text))

/-- **A stored text comes back with its line ends as line feeds.** Whatever the key, as long as its
slot can be written, and whatever the text: it is stored, and in memory it is read as it was. In a
file it is so just if there is no carriage return in it; any other text is read with its line ends,
and nothing else, changed, and reading and storing it again changes nothing more. -/
theorem stored_text_comesBack (h : s.IsWritable key) (text : String) : s.ComesBack key text := by
  have hstored : (s.set key text).1 = .ok () := h.set_eq_ok text
  have hread := get_set_eq hstored
  refine ⟨hstored, hread, ?_, filter_readForm s text, (h.set text).set_eq_ok _, ?_⟩
  · rw [hread, ← readForm_eq_self_iff]
    simp only [Except.ok.injEq, Option.some.injEq]
  · rw [get_set_eq ((h.set text).set_eq_ok _), readForm_set, readForm_readForm]

theorem stored_lines_comeBack :
    IsWritable { backend := .files [] } "notes" ∧
      ComesBack { backend := .files [] } "notes" "one\r\ntwo\n" := by
  have h : IsWritable { backend := .files [] } "notes" :=
    ⟨rfl, by decide +kernel, by decide +kernel, by decide +kernel, by decide +kernel⟩
  exact ⟨h, stored_text_comesBack h _⟩

/-- A carriage return comes back from a file as a line feed, and from memory as itself. -/
theorem stored_return_reads_as_feed :
    let files := Storage.set { backend := .files [] } "notes" "one\rtwo"
    let memory := Storage.set { backend := .memory [] } "notes" "one\rtwo"
    files.1 = .ok () ∧ files.2.get "notes" = .ok (some "one\ntwo") ∧
      files.2.get "notes" ≠ .ok (some "one\rtwo") ∧
      memory.1 = .ok () ∧ memory.2.get "notes" = .ok (some "one\rtwo") := by
  decide +kernel

end Storage

end StellarWallet
