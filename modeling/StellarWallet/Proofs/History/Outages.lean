import StellarWallet.Proofs.History.Persistence
import StellarWallet.Proofs.Storage.OtherSlots

/-!
Histories whose writes fail.

Before each call the storage may have changed in any way that leaves the slot of the history alone:
writes may be refused, drafts may stand half written where the next one goes, folders may be in the
way. Whatever fails, no call raises anything, the list in memory is what the changes make of it, and
the slot holds the list of the last write that succeeded.
-/

namespace StellarWallet

/-- A call on a history, with the storage that it finds. -/
structure HistoryCall where
  storage : Storage
  change : HistoryChange

/-- The entry that is added, if one is, has a kind of the vocabulary. -/
def HistoryCall.IsKnown (c : HistoryCall) : Prop := ∀ e, c.change = .added e → e.kind.IsKnown

/-- How many entries a change drops, if that is asked. -/
def HistoryChange.dropped (entries : List HistoryEntry) : HistoryChange → Option Nat
  | .added _ => none
  | .cleared => some entries.length

/-- The text of a list of entries. -/
def HistoryEntry.listText? (es : List HistoryEntry) : Option String :=
  match es.mapM HistoryEntry.toValue with
  | .ok vs => Json.write? (.list vs)
  | .error _ => none

namespace History

variable {h : History} {s : Storage} {c : HistoryCall} {cs : List HistoryCall}

/-- The history on another storage. -/
def on (h : History) (s : Storage) : History := { h with storage := s }

/-- The storage may take the place of that of the history: the slot is the same, and a refusal is a
fault that is only noted. -/
structure Allows (h : History) (s : Storage) : Prop where
  content : s.content h.key = h.storage.content h.key
  refusal : ∀ fault, s.refusal = some fault → isAbsorbed fault.kind = true

/-- What a change answers. -/
def answer (h : History) : HistoryChange → Except Fault (Option Nat)
  | .added e => (h.push e).1.map fun _ => none
  | .cleared => h.clear.1.map some

/-- The history after a call. -/
def call (h : History) (c : HistoryCall) : History := (h.on c.storage).change c.change

/-- The history after some calls. -/
def calls (h : History) (cs : List HistoryCall) : History := cs.foldl call h

/-- Each call finds a storage that may take the place of the one before. -/
def Endures : History → List HistoryCall → Prop
  | _, [] => True
  | h, c :: cs => h.Allows c.storage ∧ Endures (h.call c) cs

/-- The write of a call succeeds. -/
def Writes (h : History) (c : HistoryCall) : Prop :=
  ((h.on c.storage).changed c.change).write.1 = .ok ()

/-- No write of the calls succeeds. -/
def WritesNone : History → List HistoryCall → Prop
  | _, [] => True
  | h, c :: cs => ¬ h.Writes c ∧ WritesNone (h.call c) cs

/-- All entries have a kind of the vocabulary. -/
def AreKnown (h : History) : Prop := ∀ e ∈ h.entries, e.kind.IsKnown

/-! ### One call -/

lemma calls_append (h : History) (before after : List HistoryCall) :
    h.calls (before ++ after) = (h.calls before).calls after := List.foldl_append

/-- What a save leaves is what its write leaves. -/
lemma save_snd (h : History) : h.save.2 = h.write.2 := by
  unfold save
  split
  · next hw => rw [hw]
  · rfl

lemma change_eq (h : History) (c : HistoryChange) : h.change c = (h.changed c).write.2 := by
  cases c with
  | added e => exact save_snd _
  | cleared => exact save_snd _

lemma call_eq (h : History) (c : HistoryCall) :
    h.call c = { h.on c.storage with
      entries := c.change.apply h.maxItems h.entries, storage := (h.call c).storage } := by
  rw [call, change_eq, write_eq]
  rfl

lemma AreKnown.changed (hk : h.AreKnown) (hc : c.IsKnown) :
    ((h.on c.storage).changed c.change).AreKnown := by
  intro e he
  unfold History.changed at he
  dsimp only at he
  cases hchange : c.change with
  | added x =>
    rw [hchange] at he
    rcases List.mem_cons.1 ((atMost_sublist _ _).subset he) with rfl | he
    · exact hc e hchange
    · exact hk e he
  | cleared =>
    rw [hchange] at he
    cases he

lemma AreKnown.call (hk : h.AreKnown) (hc : c.IsKnown) : (h.call c).AreKnown := by
  rw [call_eq]
  exact hk.changed hc

/-- No call raises anything. -/
lemma answer_eq (hk : h.AreKnown) (hs : h.Allows c.storage) (hc : c.IsKnown) :
    (h.on c.storage).answer c.change = .ok (c.change.dropped h.entries) := by
  have hquiet : (h.on c.storage).Quiet := ⟨hk, hs.refusal⟩
  cases hchange : c.change with
  | added e =>
    obtain ⟨storage, hpush, -⟩ := hquiet.push (hc e hchange)
    rw [answer, hpush]
    rfl
  | cleared =>
    obtain ⟨storage, hclear, -⟩ := hquiet.clear
    rw [answer, hclear]
    rfl

/-- A write of entries that all have a name for their kind goes to the storage. -/
lemma write_of_areKnown (hk : h.AreKnown) : ∃ vs, h.entries.mapM HistoryEntry.toValue = .ok vs ∧
    h.write = ((h.storage.writeJson h.key (.list vs)).1,
      { h with storage := (h.storage.writeJson h.key (.list vs)).2 }) := by
  obtain ⟨vs, hvs⟩ := mapM_toValue hk
  have hv : h.toValue = .ok (.list vs) := by rw [toValue, hvs]; rfl
  exact ⟨vs, hvs, by rw [write, hv]⟩

lemma get_write (hk : h.AreKnown) (hw : h.write.1 = .ok ()) :
    ∃ text, HistoryEntry.listText? h.entries = some text ∧
      h.write.2.storage.get h.key = .ok (some text) := by
  obtain ⟨vs, hvs, hwrite⟩ := write_of_areKnown hk
  rw [hwrite] at hw ⊢
  obtain ⟨text, htext, hget⟩ := Storage.get_writeJson hw
  exact ⟨text, by rw [HistoryEntry.listText?, hvs]; exact htext, hget⟩

lemma content_write (hk : h.AreKnown) (hw : h.write.1 ≠ .ok ()) :
    h.write.2.storage.content h.key = h.storage.content h.key := by
  obtain ⟨vs, -, hwrite⟩ := write_of_areKnown hk
  rw [hwrite] at hw ⊢
  cases houtcome : (h.storage.writeJson h.key (.list vs)).1 with
  | error fault => exact Storage.content_writeJson_of_error houtcome
  | ok u => exact absurd houtcome hw

/-! ### Runs -/

lemma key_call (h : History) (c : HistoryCall) : (h.call c).key = h.key := by rw [call_eq]; rfl

lemma maxItems_call (h : History) (c : HistoryCall) : (h.call c).maxItems = h.maxItems := by
  rw [call_eq]
  rfl

lemma key_calls (h : History) (cs : List HistoryCall) : (h.calls cs).key = h.key := by
  induction cs generalizing h with
  | nil => rfl
  | cons c cs ih => exact (ih (h.call c)).trans (key_call h c)

/-- The list in memory is what the changes make of it, whatever becomes of the writes. -/
lemma entries_calls (h : History) (cs : List HistoryCall) : (h.calls cs).entries
    = (cs.map (·.change)).foldl (fun es c => c.apply h.maxItems es) h.entries := by
  induction cs generalizing h with
  | nil => rfl
  | cons c cs ih =>
    have hfirst : (h.call c).entries = c.change.apply h.maxItems h.entries := by rw [call_eq]
    exact (ih (h.call c)).trans (by rw [maxItems_call, hfirst]; rfl)

lemma AreKnown.calls (hk : h.AreKnown) (hcs : ∀ c ∈ cs, c.IsKnown) : (h.calls cs).AreKnown := by
  induction cs generalizing h with
  | nil => exact hk
  | cons c cs ih =>
    rw [List.forall_mem_cons] at hcs
    exact ih (hk.call hcs.1) hcs.2

lemma endures_append {before after : List HistoryCall} :
    h.Endures (before ++ after) ↔ h.Endures before ∧ (h.calls before).Endures after := by
  induction before generalizing h with
  | nil => exact (and_iff_right trivial).symm
  | cons c before ih =>
    rw [List.cons_append, Endures, Endures, ih, and_assoc]
    rfl

/-- A call whose write succeeds leaves the text of the list. -/
lemma get_call_of_writes (hk : h.AreKnown) (hc : c.IsKnown) (hw : h.Writes c) :
    ∃ text, HistoryEntry.listText? (h.call c).entries = some text ∧
      (h.call c).storage.get h.key = .ok (some text) := by
  obtain ⟨text, htext, hget⟩ := get_write (hk.changed hc) hw
  rw [call, change_eq]
  exact ⟨text, by rw [write_eq]; exact htext, hget⟩

/-- A call whose write fails leaves what the slot held. -/
lemma get_call_of_not_writes (hk : h.AreKnown) (hs : h.Allows c.storage) (hc : c.IsKnown)
    (hw : ¬ h.Writes c) : (h.call c).storage.get h.key = h.storage.get h.key := by
  have hcontent := content_write (hk.changed hc) hw
  rw [call, change_eq]
  exact (Storage.get_congr hcontent).trans (Storage.get_congr hs.content)

lemma get_calls_of_writesNone (hk : h.AreKnown) (hcs : ∀ c ∈ cs, c.IsKnown) (he : h.Endures cs)
    (hw : h.WritesNone cs) : (h.calls cs).storage.get h.key = h.storage.get h.key := by
  induction cs generalizing h with
  | nil => rfl
  | cons c cs ih =>
    rw [List.forall_mem_cons] at hcs
    have hrest := ih (hk.call hcs.1) hcs.2 he.2 hw.2
    rw [key_call] at hrest
    exact hrest.trans (get_call_of_not_writes hk he.1 hcs.1 hw.1)

/-- What some calls on a history come to, whatever becomes of their writes. -/
structure Survives (h : History) (cs : List HistoryCall) : Prop where
  /-- No call raises anything; a drop says how many entries were in memory. -/
  answers : ∀ before c after, cs = before ++ c :: after →
    ((h.calls before).on c.storage).answer c.change
      = .ok (c.change.dropped (h.calls before).entries)
  /-- The list in memory depends on the changes alone. -/
  entries : (h.calls cs).entries
    = (cs.map (·.change)).foldl (fun es c => c.apply h.maxItems es) h.entries
  untouched : h.WritesNone cs → (h.calls cs).storage.get h.key = h.storage.get h.key
  /-- After the last write that succeeded, the slot holds the list as it was in memory then. -/
  latest : ∀ before c after, cs = before ++ c :: after → (h.calls before).Writes c →
    (h.calls (before ++ [c])).WritesNone after →
    ∃ text, HistoryEntry.listText? (h.calls (before ++ [c])).entries = some text ∧
      (h.calls cs).storage.get h.key = .ok (some text)

lemma AreKnown.survives (hk : h.AreKnown) (hcs : ∀ c ∈ cs, c.IsKnown) (he : h.Endures cs) :
    h.Survives cs where
  answers := by
    rintro before c after rfl
    rw [List.forall_mem_append, List.forall_mem_cons] at hcs
    have hc := (endures_append.1 he).2.1
    exact answer_eq (hk.calls hcs.1) hc hcs.2.1
  entries := entries_calls h cs
  untouched := get_calls_of_writesNone hk hcs he
  latest := by
    rintro before c after rfl hw hnone
    rw [List.forall_mem_append, List.forall_mem_cons] at hcs
    obtain ⟨hbefore, hc, hafter⟩ := hcs
    have hstart : h.calls (before ++ [c]) = (h.calls before).call c := calls_append h before [c]
    have hend : h.calls (before ++ c :: after) = (h.calls (before ++ [c])).calls after := by
      rw [hstart]
      exact calls_append h before (c :: after)
    obtain ⟨text, htext, hget⟩ := get_call_of_writes (hk.calls hbefore) hc hw
    rw [← hstart, key_calls] at hget
    rw [← hstart] at htext
    have hkept := get_calls_of_writesNone (h := h.calls (before ++ [c]))
      (by rw [hstart]; exact (hk.calls hbefore).call hc) hafter
      (by rw [hstart]; exact (endures_append.1 he).2.2) hnone
    rw [key_calls] at hkept
    exact ⟨text, htext, by rw [hend, hkept, hget]⟩

/-- **Failing writes lose nothing.** Whatever is in the slot at the start, a history is loaded
unless that goes too deep. Any calls on it, each on a storage that may have changed in all but the
slot and may refuse to be written, raise nothing; the list in memory is what the changes make of it;
and the slot holds what it held at the start or, once a write has succeeded, the text of the list
that was in memory at the last such write, with every entry recorded until then. -/
theorem failing_writes_lose_nothing {storage : Storage} {key : String} {maxItems : Int}
    {text? : Option String} (hslot : storage.get key = .ok text?)
    (hroom : ∀ text ∈ text?, storage.reader.HasRoom text) :
    ∃ h₀, load storage key maxItems = .ok h₀ ∧ h₀.storage.get h₀.key = .ok text? ∧
      ∀ cs, (∀ c ∈ cs, c.IsKnown) → h₀.Endures cs → h₀.Survives cs := by
  refine ⟨_, load_of_get hslot hroom, hslot, ?_⟩
  intro cs hcs he
  refine AreKnown.survives (fun e hmem => ?_) hcs he
  obtain ⟨_, fields, -, -, hf⟩ := mem_readEntries ((atMost_sublist _ _).subset hmem)
  exact (HistoryEntry.ofFields_eq_ok hf).1

/-- A payment of so many units. -/
def payment (n : Int) : HistoryEntry :=
  { id := toString n, kind := .known .classic, direction := .withdraw, asset := .xlm
    amount := .whole n, status := .success, timestamp := "now" }

/-- A file with an empty list, and what else stands in the directory. -/
def emptyListBeside (others : Directory) : Storage :=
  { backend := .files (("history.json", .file (Utf8.encode "[]".toList)) :: others) }

/-- Two writes fail, one refused and one with a folder in the place of its draft, and the third one
finds a draft half written. -/
def troubledCalls : List HistoryCall := [
  ⟨{ emptyListBeside [] with refusal := some ⟨.system, "disk full"⟩ }, .added (payment 1)⟩,
  ⟨emptyListBeside [("history.json.tmp", .folder)], .added (payment 2)⟩,
  ⟨emptyListBeside [("history.json.tmp", .file [91, 123])], .added (payment 3)⟩]

theorem troubled_payments_are_kept :
    let h₀ : History := { storage := emptyListBeside [], key := "history", maxItems := 2 }
    (emptyListBeside []).get "history" = .ok (some "[]") ∧
      (emptyListBeside []).reader.HasRoom "[]" ∧
      load (emptyListBeside []) "history" 2 = .ok h₀ ∧ h₀.Endures troubledCalls ∧
      h₀.WritesNone (troubledCalls.take 2) ∧ h₀.Survives troubledCalls ∧
      (h₀.calls troubledCalls).entries = [payment 3, payment 2] ∧
      ∃ text, HistoryEntry.listText? [payment 3, payment 2] = some text ∧
        (h₀.calls troubledCalls).storage.get "history" = .ok (some text) := by
  intro h₀
  have hslot : (emptyListBeside []).get "history" = .ok (some "[]") := by decide +kernel
  have hroom : ∀ text ∈ some "[]", (emptyListBeside []).reader.HasRoom text := by
    rintro text ⟨⟩
    exact Json.Reader.hasRoom_of_isOk rfl
  have hload : load (emptyListBeside []) "history" 2 = .ok h₀ := by
    rw [load_of_get hslot hroom]
    rfl
  have hcs : ∀ c ∈ troubledCalls, c.IsKnown := by
    simp [troubledCalls, HistoryCall.IsKnown, payment, RecordedKind.IsKnown]
  have hnoted : isAbsorbed .system = true := rfl
  have he : h₀.Endures troubledCalls := by
    refine ⟨⟨rfl, ?_⟩, ⟨by decide +kernel, ?_⟩, ⟨by decide +kernel, ?_⟩, trivial⟩
    · rintro fault ⟨⟩
      exact hnoted
    · rintro fault ⟨⟩
    · rintro fault ⟨⟩
  have hnone : h₀.WritesNone (troubledCalls.take 2) := by
    refine ⟨?_, ?_, trivial⟩
    · unfold Writes
      decide +kernel
    · unfold Writes
      decide +kernel
  obtain ⟨h, hh, -, hruns⟩ := failing_writes_lose_nothing hslot hroom
  obtain rfl : h₀ = h := Except.ok.inj (hload.symm.trans hh)
  have hsurvives := hruns troubledCalls hcs he
  have hlast : (h₀.calls (troubledCalls.take 2)).Writes
      ⟨emptyListBeside [("history.json.tmp", .file [91, 123])], .added (payment 3)⟩ := by
    unfold Writes
    decide +kernel
  have hentries : (h₀.calls troubledCalls).entries = [payment 3, payment 2] := hsurvives.entries
  obtain ⟨text, htext, hget⟩ := hsurvives.latest (troubledCalls.take 2) _ [] rfl hlast trivial
  rw [show troubledCalls.take 2 ++ [_] = troubledCalls from rfl, hentries] at htext
  exact ⟨hslot, hroom _ rfl, hload, he, hnone, hsurvives, hentries, text, htext, hget⟩

end History

end StellarWallet
