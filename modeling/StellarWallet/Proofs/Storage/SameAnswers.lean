import StellarWallet.Proofs.Storage.OtherSlots
import StellarWallet.Proofs.Storage.Writable

/-!
Files answer like memory.

Over any run of writes, removals and reads, an empty directory and an empty memory give the same
answers: what is read is the value of the last write to that slot that was not followed by a
removal, and no use of a slot changes what is read from another.
-/

namespace StellarWallet

lemma isPlainChar_of_isAlphanum {c : Char} (h : c.isAlphanum = true) : IsPlainChar c := by
  rcases Bool.or_eq_true_iff.1 h with hletter | hdigit
  · have hbounds :
        (65 ≤ c.val.toNat ∧ c.val.toNat ≤ 90) ∨ 97 ≤ c.val.toNat ∧ c.val.toNat ≤ 122 := by
      rcases Bool.or_eq_true_iff.1 hletter with hupper | hlower
      · exact Or.inl (of_decide_eq_true hupper)
      · obtain ⟨hl, hu⟩ := Bool.and_eq_true_iff.1 hlower
        exact Or.inr ⟨of_decide_eq_true hl, of_decide_eq_true hu⟩
    have hc : c.toNat = c.val.toNat := rfl
    exact ⟨by omega, by omega⟩
  · exact Json.isPlainChar_of_isDigit hdigit

lemma Utf8.length_encode {cs : List Char} (h : IsPlainText cs) :
    (encode cs).length = cs.length := by
  induction cs with
  | nil => rfl
  | cons c r ih =>
    have hc : c.toNat < 0x80 := by
      have := (h c List.mem_cons_self).2
      omega
    rw [encode, List.flatMap_cons, encodeChar, if_pos hc, ← encode, List.length_append,
      ih fun x hx => h x (List.mem_cons_of_mem _ hx), List.length_singleton, List.length_cons]
    omega

namespace SlotFile

/-- A key of letters, digits and marks that its file name shows as it is, short enough for the
draft to have a name as well. -/
structure IsKey (key : String) : Prop where
  not_empty : 1 ≤ key.length
  short : key.length ≤ 246
  plain : ∀ c ∈ key.toList, c.isAlphanum = true ∨ c = '-' ∨ c = '_'

instance (key : String) : Decidable (IsKey key) :=
  decidable_of_iff (1 ≤ key.length ∧ key.length ≤ 246 ∧
      key.toList.all (fun c => c.isAlphanum = true ∨ c = '-' ∨ c = '_') = true)
    ⟨fun ⟨h, h', h''⟩ => ⟨h, h', fun c hc => of_decide_eq_true (List.all_eq_true.1 h'' c hc)⟩,
      fun h => ⟨h.not_empty, h.short, List.all_eq_true.2 fun c hc => decide_eq_true (h.plain c hc)⟩⟩

variable {key other : String}

lemma IsKey.isPlainText (h : IsKey key) : IsPlainText key.toList := by
  intro c hc
  obtain hc | rfl | rfl := h.plain c hc
  · exact isPlainChar_of_isAlphanum hc
  · decide
  · decide

lemma nameChar_of_plain {c : Char} (h : c.isAlphanum = true ∨ c = '-' ∨ c = '_') :
    nameChar c = c := by
  obtain h | rfl | rfl := h
  · have hsmall : c.toNat < 128 := by
      have := (isPlainChar_of_isAlphanum h).2
      omega
    have hc : Text.isAlphanumeric c = true := by rw [Text.isAlphanumeric, if_pos hsmall, h]
    rw [nameChar, hc]
    rfl
  · rfl
  · rfl

lemma IsKey.stem_eq (h : IsKey key) : stem key = key := by
  rw [stem, List.map_congr_left fun c hc => nameChar_of_plain (h.plain c hc), List.map_id',
    String.ofList_toList]

lemma IsKey.name_eq (h : IsKey key) : name key = key ++ extension := by rw [name, h.stem_eq]

lemma IsKey.draftName_eq (h : IsKey key) : draftName key = key ++ extension ++ ".tmp" := by
  have hne : key ≠ "" := by
    rintro rfl
    exact absurd h.not_empty (by decide)
  rw [draftName, if_neg hne, h.stem_eq]

/-- Different keys have different files. -/
lemma IsKey.name_ne_name (h : IsKey key) (h' : IsKey other) (hne : other ≠ key) :
    name other ≠ name key := by
  rw [h.name_eq, h'.name_eq]
  exact fun he => hne ((String.append_left_inj extension).1 he)

lemma IsKey.fits_append (h : IsKey key) {tail : String} (htail : IsPlainText tail.toList)
    (hlen : tail.length ≤ 9) : Directory.fits (key ++ tail) = true := by
  have hplain : IsPlainText (key ++ tail).toList := by
    rw [String.toList_append]
    exact h.isPlainText.append htail
  have hshort := h.short
  rw [Directory.fits, Utf8.length_encode hplain, String.length_toList, String.length_append]
  refine decide_eq_true ?_
  rw [Directory.maxNameBytes]
  omega

/-- The slot of a key can be written in a directory without folders. -/
lemma IsKey.isWritable (h : IsKey key) {d : Directory} (hd : ∀ n, d.item? n ≠ some .folder) :
    IsWritable d key where
  fits_draft := by
    rw [h.draftName_eq, String.append_assoc]
    exact h.fits_append (by decide) (by decide)
  fits := by
    rw [h.name_eq]
    exact h.fits_append (by decide) (by decide)
  draft := hd _
  file := hd _

end SlotFile

/-- What may be done with the slots of a storage. -/
inductive SlotStep where
  | write (key : String) (v : Value)
  | remove (key : String)
  | read (key : String)

inductive SlotAnswer where
  | done
  | found (v : Value)
  | failed (fault : Fault)

namespace SlotAnswer

def ofChange : Except Fault Unit → SlotAnswer
  | .ok _ => .done
  | .error fault => .failed fault

def ofRead : Except Fault Value → SlotAnswer
  | .ok v => .found v
  | .error fault => .failed fault

end SlotAnswer

namespace SlotStep

/-- The slot of a step. -/
def key : SlotStep → String
  | .write key _ | .remove key | .read key => key

/-- The slot has a proper key, and a reader can read the value back from its text. -/
structure IsProper (reader : Json.Reader) (step : SlotStep) : Prop where
  key : SlotFile.IsKey step.key
  value : ∀ key v, step = .write key v → v.IsPlain Json.IsReadable reader.depth

/-- The value of the last write to a slot that no removal came after, the latest step first. -/
def held (key : String) : List SlotStep → Option Value
  | [] => none
  | .write k v :: past => if k = key then some v else held key past
  | .remove k :: past => if k = key then none else held key past
  | .read _ :: past => held key past

/-- The answer to a step after others, the latest first. -/
def answer (past : List SlotStep) : SlotStep → SlotAnswer
  | .write _ _ | .remove _ => .done
  | .read key => .found ((held key past).getD .null)

/-- The answers to steps after others, the latest first. -/
def answers (past : List SlotStep) : List SlotStep → List SlotAnswer
  | [] => []
  | step :: steps => step.answer past :: answers (step :: past) steps

lemma held_of_ne {key : String} {step : SlotStep} (h : key ≠ step.key) (past : List SlotStep) :
    held key (step :: past) = held key past := by
  cases step with
  | write k v => exact if_neg h.symm
  | remove k => exact if_neg h.symm
  | read k => rfl

end SlotStep

namespace Storage

open SlotFile (IsKey)
open SlotStep (held)

/-- A memory without slots. -/
def inMemory (reader : Json.Reader) : Storage := { backend := .memory [], reader }

/-- A directory without files. -/
def inFiles (reader : Json.Reader) : Storage := { backend := .files [], reader }

def step (s : Storage) : SlotStep → SlotAnswer × Storage
  | .write key v => (.ofChange (s.writeJson key v).1, (s.writeJson key v).2)
  | .remove key => (.ofChange (s.remove key).1, (s.remove key).2)
  | .read key => (.ofRead (s.readJson key), s)

/-- The answers to some steps, one after the other. -/
def answers (s : Storage) : List SlotStep → List SlotAnswer
  | [] => []
  | step :: steps => (s.step step).1 :: (s.step step).2.answers steps

/-- No step changes what is read from a slot that is not its own. -/
def KeepsOthers (s : Storage) : List SlotStep → Prop
  | [] => True
  | step :: steps =>
    (∀ key, IsKey key → key ≠ step.key → (s.step step).2.readJson key = s.readJson key) ∧
      (s.step step).2.KeepsOthers steps

/-- The storage can be written, and what is read from it is what some steps wrote. -/
structure IsAfter (reader : Json.Reader) (past : List SlotStep) (s : Storage) : Prop where
  reader : s.reader = reader
  writable : ∀ key, IsKey key → s.IsWritable key
  reads : ∀ key, IsKey key → s.readJson key = .ok ((held key past).getD .null)

variable {reader : Json.Reader} {s : Storage} {past steps : List SlotStep}

lemma isAfter_inMemory (reader : Json.Reader) : (inMemory reader).IsAfter reader [] where
  reader := rfl
  writable := fun _ _ => ⟨rfl, trivial⟩
  reads := fun _ _ => rfl

lemma isAfter_inFiles (reader : Json.Reader) : (inFiles reader).IsAfter reader [] where
  reader := rfl
  writable := fun _ hkey => ⟨rfl, hkey.isWritable nofun⟩
  reads := by
    intro key hkey
    have hfits : Directory.fits (SlotFile.name key) = true :=
      (hkey.isWritable (d := []) nofun).fits
    rw [readJson, get, inFiles]
    dsimp only
    rw [SlotFile.get, hfits]
    rfl

/-! ### One step -/

section

variable {action : SlotStep}

/-- What is read from a slot after a step on another one. -/
lemma readJson_step {key : String} (hkey : IsKey key) (haction : IsKey action.key)
    (hne : key ≠ action.key) : (s.step action).2.readJson key = s.readJson key := by
  have hname : SlotFile.name key ≠ SlotFile.name action.key := haction.name_ne_name hkey hne
  cases action with
  | write k v => exact readJson_congr (content_writeJson_of_ne hname v) (reader_writeJson s k v)
  | remove k => exact readJson_congr (content_remove_of_ne hname) (reader_remove s k)
  | read k => rfl

lemma isWritable_step {key : String} (h : s.IsWritable key) (action : SlotStep) :
    (s.step action).2.IsWritable key := by
  cases action with
  | write k v => exact h.writeJson v
  | remove k => exact h.remove
  | read k => exact h

lemma reader_step (s : Storage) (action : SlotStep) : (s.step action).2.reader = s.reader := by
  cases action with
  | write k v => exact reader_writeJson s k v
  | remove k => exact reader_remove s k
  | read k => rfl

/-- The answer to a step, and what is read from its slot after it. -/
lemma IsAfter.answer_eq (h : s.IsAfter reader past) (haction : action.IsProper reader) :
    (s.step action).1 = action.answer past ∧
      (s.step action).2.readJson action.key
        = .ok ((held action.key (action :: past)).getD .null) := by
  have hwritable := h.writable action.key haction.key
  have hreads := h.reads action.key haction.key
  cases action with
  | write k v =>
    obtain ⟨hok, hread⟩ := hwritable.writeJson_eq_ok (by rw [h.reader]; exact haction.value k v rfl)
    have hheld : held k (.write k v :: past) = some v := if_pos rfl
    exact ⟨congrArg SlotAnswer.ofChange hok, hread.trans (by rw [SlotStep.key, hheld]; rfl)⟩
  | remove k =>
    have hheld : held k (.remove k :: past) = none := if_pos rfl
    exact ⟨congrArg SlotAnswer.ofChange hwritable.remove_eq_ok,
      (readJson_remove hreads).trans (by rw [SlotStep.key, hheld]; rfl)⟩
  | read k => exact ⟨congrArg SlotAnswer.ofRead hreads, hreads⟩

lemma IsAfter.step (h : s.IsAfter reader past) (haction : action.IsProper reader) :
    (s.step action).2.IsAfter reader (action :: past) where
  reader := (reader_step s action).trans h.reader
  writable := fun key hkey => isWritable_step (h.writable key hkey) action
  reads := by
    intro key hkey
    by_cases hne : key = action.key
    · rw [hne]
      exact (h.answer_eq haction).2
    · rw [readJson_step hkey haction.key hne, SlotStep.held_of_ne hne]
      exact h.reads key hkey

end

/-! ### Runs -/

lemma IsAfter.answers_eq (h : s.IsAfter reader past)
    (hsteps : ∀ action ∈ steps, action.IsProper reader) :
    s.answers steps = SlotStep.answers past steps := by
  induction steps generalizing s past with
  | nil => rfl
  | cons action steps ih =>
    obtain ⟨haction, hrest⟩ := List.forall_mem_cons.1 hsteps
    rw [answers, SlotStep.answers, (h.answer_eq haction).1, ih (h.step haction) hrest]

lemma keepsOthers (hsteps : ∀ action ∈ steps, action.IsProper reader) : s.KeepsOthers steps := by
  induction steps generalizing s with
  | nil => trivial
  | cons action steps ih =>
    obtain ⟨haction, hrest⟩ := List.forall_mem_cons.1 hsteps
    exact ⟨fun key hkey hne => readJson_step hkey haction.key hne, ih hrest⟩

/-- **Files answer like memory.** Over any steps on slots with proper keys, an empty directory and
an empty memory give the same answers, whatever reads them: a read finds the value of the last write
to its slot that no removal came after, and null without one; and no step changes what is read from
another slot. -/
theorem files_answer_like_memory (hsteps : ∀ action ∈ steps, action.IsProper reader) :
    (inFiles reader).answers steps = (inMemory reader).answers steps ∧
      (inFiles reader).answers steps = SlotStep.answers [] steps ∧
      (inFiles reader).KeepsOthers steps ∧ (inMemory reader).KeepsOthers steps := by
  have hfiles := (isAfter_inFiles reader).answers_eq hsteps
  have hmemory := (isAfter_inMemory reader).answers_eq hsteps
  exact ⟨hfiles.trans hmemory.symm, hfiles, keepsOthers hsteps, keepsOthers hsteps⟩

/-- Two slots whose keys begin alike, one of them removed. -/
theorem files_answer_like_memory_two_slots :
    let v : Value := .object [("text", .text "a\r\nb"), ("number", .number (.whole (-7)))]
    let steps : List SlotStep :=
      [.write "a" v, .write "a-1" (.list [v]), .read "a", .remove "a", .read "a", .read "a-1"]
    (∀ action ∈ steps, action.IsProper {}) ∧
      (inFiles {}).answers steps = (inMemory {}).answers steps ∧
      (inFiles {}).answers steps
        = [.done, .done, .found v, .done, .found .null, .found (.list [v])] ∧
      (inFiles {}).KeepsOthers steps ∧ (inMemory {}).KeepsOthers steps := by
  intro v steps
  have hnumber : Json.IsReadable (.whole (-7)) := by
    unfold Json.IsReadable Json.IsShort
    decide
  have hv (room : Nat) : v.IsPlain Json.IsReadable (room + 1) := by
    refine Value.isPlain_object.2 ⟨Nat.le_add_left 1 room, by decide, ?_⟩
    simp only [List.forall_mem_cons]
    exact ⟨Value.isPlain_text _, Value.isPlain_number.2 hnumber, List.forall_mem_nil _⟩
  have hlist : (Value.list [v]).IsPlain Json.IsReadable 980 :=
    Value.isPlain_list.2 ⟨by decide, List.forall_mem_singleton.2 (hv 978)⟩
  have hsteps : ∀ action ∈ steps, action.IsProper {} := by
    simp only [steps, List.forall_mem_cons]
    have ha : SlotFile.IsKey "a" := by decide
    have hb : SlotFile.IsKey "a-1" := by decide
    refine ⟨⟨ha, ?_⟩, ⟨hb, ?_⟩, ⟨ha, nofun⟩, ⟨ha, nofun⟩, ⟨ha, nofun⟩, ⟨hb, nofun⟩,
      List.forall_mem_nil _⟩
    · rintro key w ⟨⟩
      exact hv 979
    · rintro key w ⟨⟩
      exact hlist
  obtain ⟨hsame, hanswers, hfiles, hmemory⟩ := files_answer_like_memory hsteps
  exact ⟨hsteps, hsame, hanswers, hfiles, hmemory⟩

end Storage

end StellarWallet
