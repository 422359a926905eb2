import StellarWallet.CommandLine.Run
import StellarWallet.Proofs.Storage.OtherSlots
import StellarWallet.Proofs.Storage.ReadBack
import StellarWallet.Proofs.Tracker.Frame

/-!
What commands leave of the two stored slots.

Only connecting and disconnecting touch the slot of the session, and only clearing touches that of
the history; a command that fails touches neither. A history that can be read stays so.
-/

namespace StellarWallet

namespace History

lemma onlyChanges_write (h : History) :
    h.storage.OnlyChanges h.write.2.storage h.key (h.write.1 = .ok ()) := by
  unfold write
  split
  · exact .of_eq rfl
  · exact Storage.onlyChanges_writeJson _ _ _

/-- A save may succeed without a write, but not fail with one. -/
lemma onlyChanges_save (h : History) :
    h.storage.OnlyChanges h.save.2.storage h.key (h.save.1 = .ok ()) := by
  have hwrite := h.onlyChanges_write
  unfold save
  split
  · next fault h' hw =>
    rw [hw] at hwrite
    exact hwrite.mono nofun
  · exact hwrite

/-- Clearing writes an empty list. -/
lemma storage_clear (h : History) :
    h.clear.2.storage = (h.storage.writeJson h.key (.list [])).2 := by
  have hsave : (save { h with entries := [] }).2 = (write { h with entries := [] }).2 := by
    unfold save
    split
    · next fault h' hw => rw [hw]
    · rfl
  exact congrArg History.storage hsave

end History

namespace SessionSlot

lemma onlyChanges_write (slot : SessionSlot) (session? : Option WalletSession) :
    slot.storage.OnlyChanges (slot.write session?).2.storage slot.key
      ((slot.write session?).1 = .ok ()) := by
  cases session? with
  | some session => exact Storage.onlyChanges_writeJson slot.storage slot.key session.toValue
  | none => exact Storage.onlyChanges_remove slot.storage slot.key

lemma onlyChanges_connect (slot : SessionSlot) (network : Network) (now : Instant)
    (address : String) (signer : Signer) :
    slot.storage.OnlyChanges (slot.connect network now address signer).2.storage slot.key
      (∃ session, (slot.connect network now address signer).1 = .ok session) := by
  unfold connect
  split
  · exact .of_eq rfl
  · next session _ =>
    refine (slot.onlyChanges_write (some session)).mono fun hw => ⟨session, ?_⟩
    change (slot.write (some session)).1.map _ = _
    rw [hw]
    rfl

end SessionSlot

namespace Wallet

variable (w : Wallet)

def sessionKey : String := "arena_wallet_session"

def historyKey : String := "arena_wallet_tx_history"

lemma onlyChanges_connect (now : Instant) (address : String) (signer : Signer) :
    w.storage.OnlyChanges (w.connect now address signer).2.storage sessionKey
      (∃ session, (w.connect now address signer).1 = .ok session) :=
  w.slot.onlyChanges_connect w.settings.network now address signer

lemma onlyChanges_disconnect :
    w.storage.OnlyChanges w.disconnect.2.storage sessionKey (w.disconnect.1 = .ok ()) :=
  w.slot.onlyChanges_write none

lemma storage_clearHistory :
    w.clearHistory.2.storage = w.tracker.history.clear.2.storage :=
  congrArg History.storage (Tracker.clear_history w.tracker)

lemma onlyChanges_clearHistory :
    w.storage.OnlyChanges w.clearHistory.2.storage w.tracker.history.key
      (w.clearHistory.1 = .ok ()) := by
  have hsave := History.onlyChanges_save { w.tracker.history with entries := [] }
  rw [storage_clearHistory]
  refine hsave.mono fun hok => ?_
  have hclear : w.tracker.history.clear.1 = .ok w.tracker.history.entries.length := by
    change (History.save _).1.map _ = _
    rw [hok]
    rfl
  change w.tracker.clear.1 = .ok ()
  unfold Tracker.clear
  split
  · rfl
  · next fault history hf =>
    rw [hf] at hclear
    cases hclear

end Wallet

namespace Command

open Wallet (sessionKey historyKey)

/-- The slot that a command may change. -/
def slot? : Command → Option String
  | .session .connect _ _ | .session .disconnect _ _ => some sessionKey
  | .clearHistory => some historyKey
  | .session .current _ _ | .balances _ _ | .history _ _ | .link _ _ => none

variable {w : Wallet} {j : Journal} {storage : Storage} {around : Surroundings} {key : String}

lemma eq_of_slot?_session {c : Command} (h : c.slot? = some sessionKey) :
    ∃ address signer, c = .session .connect address signer ∨
      c = .session .disconnect address signer := by
  unfold slot? at h
  split at h
  · exact ⟨_, _, Or.inl rfl⟩
  · exact ⟨_, _, Or.inr rfl⟩
  · exact absurd (Option.some.inj h) (by decide)
  all_goals cases h

lemma eq_of_slot?_history {c : Command} (h : c.slot? = some historyKey) : c = .clearHistory := by
  unfold slot? at h
  split at h
  · exact absurd (Option.some.inj h) (by decide)
  · exact absurd (Option.some.inj h) (by decide)
  · rfl
  all_goals cases h

lemma slot?_eq {c : Command} (h : c.slot? = some key) : key = sessionKey ∨ key = historyKey := by
  unfold slot? at h
  split at h
  · exact Or.inl (Option.some.inj h).symm
  · exact Or.inl (Option.some.inj h).symm
  · exact Or.inr (Option.some.inj h).symm
  all_goals cases h

/-- The slot of the history can be read. -/
def ReadsHistory (storage : Storage) : Prop := ∃ v, storage.readJson historyKey = .ok v

/-- An open wallet has the settings of its environment and the history in its storage. -/
lemma openWallet_spec {env : Environment} (h : openWallet env storage = .ok w) :
    WalletSettings.ofEnvironment env = .ok w.settings ∧
      History.load storage = .ok w.tracker.history := by
  unfold openWallet at h
  obtain ⟨logs, -, h⟩ := bind_eq_ok h
  obtain ⟨_, -, h⟩ := bind_eq_ok h
  obtain ⟨settings, hsettings, h⟩ := bind_eq_ok h
  obtain ⟨_, -, h⟩ := bind_eq_ok h
  unfold Wallet.ofStorage at h
  obtain ⟨links, -, h⟩ := bind_eq_ok h
  obtain ⟨history, hload, h⟩ := bind_eq_ok h
  cases h
  exact ⟨hsettings, hload⟩

lemma openWallet_eq_ok {env : Environment} (h : openWallet env storage = .ok w) :
    w.storage = storage ∧ w.tracker.history.key = historyKey := by
  obtain ⟨v, -, hhistory⟩ := History.load_eq (openWallet_spec h).2
  rw [Wallet.storage, hhistory]
  exact ⟨rfl, rfl⟩

lemma readsHistory_of_openWallet {env : Environment} (h : openWallet env storage = .ok w) :
    ReadsHistory storage := by
  obtain ⟨v, hv, -⟩ := History.load_eq (openWallet_spec h).2
  exact ⟨v, hv⟩

lemma storage_written (text : Except Fault String) : (written w j text).storage = w.storage := by
  cases text <;> rfl

/-- Showing balances hands on the storage, whatever becomes of the lookups. -/
lemma storage_runBalances (host : Host) (address : String) (json : Bool) :
    (runBalances w host j address json).storage = w.storage := by
  unfold runBalances
  dsimp only [CommandOutcome.after]
  split
  · exact storage_written _
  · split
    · rfl
    · rfl

lemma onlyChanges_runConnect (now : Instant) (address : Option String) (signer : Signer) :
    w.storage.OnlyChanges (runConnect w now j address signer).storage sessionKey
      ((runConnect w now j address signer).ending = .ok 0) := by
  unfold runConnect
  split
  · exact .of_eq rfl
  · next address _ =>
    have hconnect := w.onlyChanges_connect now address signer
    split
    · next session w' hw =>
      rw [hw] at hconnect
      exact hconnect.mono fun _ => rfl
    · next fault w' hw =>
      rw [hw] at hconnect
      have hfailed : ¬ ∃ session, (.error fault : Except Fault WalletSession) = .ok session := nofun
      split
      · exact hconnect.mono fun hok => absurd hok hfailed
      · exact hconnect.mono fun hok => absurd hok hfailed

lemma onlyChanges_runDisconnect :
    w.storage.OnlyChanges (runDisconnect w j).storage sessionKey
      ((runDisconnect w j).ending = .ok 0) := by
  have hdisconnect := w.onlyChanges_disconnect
  unfold runDisconnect
  split
  · next u w' hw =>
    rw [hw] at hdisconnect
    exact hdisconnect.mono fun _ => rfl
  · next fault w' hw =>
    rw [hw] at hdisconnect
    exact hdisconnect.mono nofun

lemma onlyChanges_runClear :
    w.storage.OnlyChanges (runClear w j).storage w.tracker.history.key
      ((runClear w j).ending = .ok 0) := by
  have hclear := w.onlyChanges_clearHistory
  unfold runClear
  dsimp only
  split
  · next u w' hw =>
    rw [hw] at hclear
    exact hclear.mono fun _ => rfl
  · next fault w' hw =>
    rw [hw] at hclear
    exact hclear.mono nofun

/-- A command without a slot of its own hands on the storage. -/
lemma storage_runOn {c : Command} (h : c.slot? = none) :
    (c.runOn w around j).storage = w.storage := by
  cases c with
  | balances address json => exact storage_runBalances _ _ _
  | history limit json => exact storage_written _
  | clearHistory => cases h
  | session action address signer =>
    cases action with
    | current => exact storage_written _
    | connect => cases h
    | disconnect => cases h
  | link hash kind => rfl

/-- A command with a slot of its own touches no other, and not even that one if it fails. -/
lemma onlyChanges_runOn {c : Command} (hw : w.tracker.history.key = historyKey)
    (h : c.slot? = some key) :
    w.storage.OnlyChanges (c.runOn w around j).storage key
      ((c.runOn w around j).ending = .ok 0) := by
  cases c with
  | balances address json => cases h
  | history limit json => cases h
  | clearHistory =>
    cases h
    rw [← hw]
    exact onlyChanges_runClear
  | session action address signer =>
    cases action with
    | current => cases h
    | connect =>
      cases h
      exact onlyChanges_runConnect _ _ _
    | disconnect =>
      cases h
      exact onlyChanges_runDisconnect
  | link hash kind => cases h

lemma storage_runClear : (runClear w j).storage = w.clearHistory.2.storage := by
  unfold runClear
  dsimp only
  split
  · next u w' hw => rw [hw]; rfl
  · next fault w' hw => rw [hw]; rfl

/-- What a command does to a slot: nothing unless it is its own and the command succeeds. -/
lemma content_run {c : Command} (hkey : key = sessionKey ∨ key = historyKey)
    (h : ¬ (c.slot? = some key ∧ (c.run around storage j).ending = .ok 0)) :
    (c.run around storage j).storage.content key = storage.content key := by
  have hfiles : SlotFile.name sessionKey ≠ SlotFile.name historyKey := by decide
  unfold run at h ⊢
  split at h
  · rfl
  · next w hopen =>
    obtain ⟨rfl, hw⟩ := openWallet_eq_ok hopen
    cases hslot : c.slot? with
    | none => exact congrArg (·.content key) (storage_runOn hslot)
    | some own =>
      have honly : w.storage.OnlyChanges (c.runOn w around j).storage own
          ((c.runOn w around j).ending = .ok 0) := onlyChanges_runOn hw hslot
      by_cases hown : own = key
      · subst hown
        exact honly.undone fun hok => h ⟨hslot, hok⟩
      · refine honly.others ?_
        rcases hkey with rfl | rfl <;> rcases slot?_eq hslot with rfl | rfl
        · exact absurd rfl hown
        · exact hfiles
        · exact hfiles.symm
        · exact absurd rfl hown

lemma reader_run (c : Command) (around : Surroundings) (storage : Storage) (j : Journal) :
    (c.run around storage j).storage.reader = storage.reader := by
  unfold run
  split
  · rfl
  · next w hopen =>
    obtain ⟨rfl, hw⟩ := openWallet_eq_ok hopen
    cases hslot : c.slot? with
    | none => exact congrArg Storage.reader (storage_runOn hslot)
    | some own => exact (onlyChanges_runOn hw hslot).reader

/-- An empty list that is written reads back, and one that cannot be written changes nothing. -/
lemma ReadsHistory.writeJson_nil (h : ReadsHistory storage) :
    ReadsHistory (storage.writeJson historyKey (.list [])).2 := by
  cases hw : (storage.writeJson historyKey (.list [])).1 with
  | ok u =>
    have hroom : 1 ≤ storage.reader.depth := le_trans (by decide) storage.reader.two_le_depth
    have hplain : (Value.list []).IsPlain Json.IsReadable storage.reader.depth :=
      Value.isPlain_list.2 ⟨hroom, List.forall_mem_nil _⟩
    exact ⟨_, Storage.readJson_writeJson hplain hw⟩
  | error fault =>
    obtain ⟨v, hv⟩ := h
    refine ⟨v, (Storage.readJson_congr ?_ (Storage.reader_writeJson _ _ _)).trans hv⟩
    exact Storage.content_writeJson_of_error hw

/-- A history that could be read can be read after any command. -/
lemma ReadsHistory.run (h : ReadsHistory storage) (c : Command) (around : Surroundings)
    (j : Journal) : ReadsHistory (c.run around storage j).storage := by
  by_cases hslot : c.slot? = some historyKey
  · obtain rfl := eq_of_slot?_history hslot
    unfold Command.run
    split
    · exact h
    · next w hopen =>
      obtain ⟨rfl, hw⟩ := openWallet_eq_ok hopen
      change ReadsHistory (runClear w j).storage
      rw [storage_runClear, Wallet.storage_clearHistory, History.storage_clear, hw]
      exact h.writeJson_nil
  · obtain ⟨v, hv⟩ := h
    have hcontent : (c.run around storage j).storage.content historyKey
        = storage.content historyKey := content_run (Or.inr rfl) fun hdone => hslot hdone.1
    exact ⟨v, (Storage.readJson_congr hcontent (reader_run c around storage j)).trans hv⟩

end Command

end StellarWallet
