import StellarWallet.Proofs.Account.Acceptance
import StellarWallet.Proofs.Json.Depth
import StellarWallet.Proofs.Storage.Atomicity
import StellarWallet.Proofs.Storage.ReadBack
import StellarWallet.Proofs.Storage.Refusal
import StellarWallet.Proofs.Time
import StellarWallet.Session

/-!
The slot of the session holds the last successful connection.

Whatever text was in the slot at the start and whatever was done with it since, what is read is the
session of the last connection that succeeded, none if the slot was emptied after it, and what the
text at the start comes to if neither has happened: the session that it tells of, or none, but a
fault if it goes too deep to be read. A connection that fails leaves the text alone.
-/

namespace StellarWallet

/-- What may be done with the slot of a session. -/
inductive SessionStep where
  | connect (now : Instant) (address : String) (signer : Signer)
  | disconnect
  | current

/-- What became of a step. -/
inductive SessionEvent where
  | connected (session : WalletSession)
  | refused (fault : Fault)
  | disconnected
  | answered (session : Except Fault (Option WalletSession))

/-- What is read after some events, the latest first. -/
def SessionEvent.lastSession (first : Except Fault (Option WalletSession)) :
    List SessionEvent → Except Fault (Option WalletSession)
  | [] => first
  | .connected session :: _ => .ok (some session)
  | .disconnected :: _ => .ok none
  | .refused _ :: events | .answered _ :: events => lastSession first events

namespace SessionSlot

open SessionEvent (lastSession)

def step (slot : SessionSlot) (network : Network) : SessionStep → SessionEvent × SessionSlot
  | .connect now address signer =>
    match slot.connect network now address signer with
    | (.ok session, slot) => (.connected session, slot)
    | (.error fault, slot) => (.refused fault, slot)
  | .disconnect => (.disconnected, slot.disconnect.2)
  | .current => (.answered slot.current, slot)

/-- The slot after some steps. -/
def after (slot : SessionSlot) (network : Network) (steps : List SessionStep) : SessionSlot :=
  steps.foldl (fun slot step => (slot.step network step).2) slot

/-- What became of some steps. -/
def events (slot : SessionSlot) (network : Network) : List SessionStep → List SessionEvent
  | [] => []
  | step :: steps => (slot.step network step).1 :: (slot.step network step).2.events network steps

/-- The session that the text of a slot tells of; none without a text, and if it is no JSON text or
one of another form. -/
def textSession (reader : Json.Reader) : Option String → Except Fault (Option WalletSession)
  | none => .ok none
  | some text =>
    match reader.read text with
    | .ok v => .ok (WalletSession.ofValue? v)
    | .error .malformed => .ok none
    | .error (.tooDeep what) => .error (.tooDeep what)

/-- What connecting an address comes to. -/
structure ConnectsSoundly (slot : SessionSlot) (network : Network) (now : Instant)
    (address : String) (signer : Signer) : Prop where
  /-- A malformed address is an invalid value, and nothing changes. -/
  malformed : ∀ fault, Address.ofText address = .error fault →
    slot.connect network now address signer = (.error ⟨.invalidValue, fault.message⟩, slot)
  /-- A connection holds the normal form of the address, which is an address and its own normal
  form, with the signer, the network and the time. -/
  connected : ∀ session, (slot.connect network now address signer).1 = .ok session →
    Address.ofText address = .ok session.address ∧
      Address.ofText session.address = .ok session.address ∧
      session.signer = signer ∧ session.network = network ∧
      (now.IsDated → now.IsTimestamp session.connectedAt)
  /-- The connection of an address succeeds unless the storage cannot write. -/
  accepted : ∀ key, Address.ofText address = .ok key →
    (∃ session, (slot.connect network now address signer).1 = .ok session) ∨
      ∃ fault, (slot.connect network now address signer).1 = .error fault ∧
        (slot.storage.refusal = some fault ∨ fault = Directory.nameTooLong ∨
          fault = Directory.isFolder)
  /-- A connection that fails leaves the stored text as it was. -/
  unchanged : ∀ fault, (slot.connect network now address signer).1 = .error fault →
    (slot.connect network now address signer).2.storage.get slot.key = slot.storage.get slot.key

variable {slot : SessionSlot} {network : Network} {text? : Option String}

lemma current_of_get (h : slot.storage.get slot.key = .ok text?) :
    slot.current = textSession slot.storage.reader text? := by
  rw [current, Storage.readJson, h, ok_bind]
  cases text? with
  | none => rfl
  | some text =>
    dsimp only
    rw [Storage.readText, textSession]
    cases slot.storage.reader.read text with
    | ok v => rfl
    | error fault => cases fault <;> rfl

/-! ### One step -/

section

variable {now : Instant} {address key : String} {signer : Signer}

lemma isPlain_toValue (session : WalletSession) (p : Number → Prop) {room : Nat}
    (hroom : 1 ≤ room) : session.toValue.IsPlain p room := by
  have hkeys : ["publicKey", "walletType", "network", "connectedAt"].Nodup := by decide
  refine Value.isPlain_object.2 ⟨hroom, hkeys, ?_⟩
  simp only [List.forall_mem_cons]
  exact ⟨Value.isPlain_text _, Value.isPlain_text _, Value.isPlain_text _, Value.isPlain_text _,
    List.forall_mem_nil _⟩

lemma fault_of_write {session : WalletSession} {fault : Fault}
    (h : (slot.storage.writeJson slot.key session.toValue).1 = .error fault) :
    slot.storage.refusal = some fault ∨ fault = Directory.nameTooLong ∨
      fault = Directory.isFolder := by
  have hjson : Json.write? session.toValue = some (String.ofList (Json.encode session.toValue)) :=
    rfl
  rw [Storage.writeJson, hjson] at h
  exact Storage.fault_of_set h

lemma connect_of_error {fault : AddressFault} (h : Address.ofText address = .error fault) :
    slot.connect network now address signer = (.error fault.toFault, slot) := by
  rw [connect, sessionOf, h]

/-- The connection of an address is the write of its session. -/
lemma connect_of_ok (h : Address.ofText address = .ok key) :
    let session : WalletSession := ⟨key, signer, network, now.timestamp⟩
    let written := slot.storage.writeJson slot.key session.toValue
    (written.1 = .ok () ∧ slot.connect network now address signer
      = (.ok session, { slot with storage := written.2 })) ∨
    ∃ fault, written.1 = .error fault ∧ slot.connect network now address signer
      = (.error fault, { slot with storage := written.2 }) := by
  intro session written
  have hconnect : slot.connect network now address signer
      = (written.1.map fun _ => session, { slot with storage := written.2 }) := by
    simp only [connect, sessionOf, h, write]
    rfl
  rw [hconnect]
  rcases written.1 with fault | u
  · exact Or.inr ⟨fault, rfl, rfl⟩
  · exact Or.inl ⟨rfl, rfl⟩

lemma connectsSoundly (slot : SessionSlot) (network : Network) (now : Instant) (address : String)
    (signer : Signer) : slot.ConnectsSoundly network now address signer := by
  cases h : Address.ofText address with
  | error reason =>
    have hc : slot.connect network now address signer = _ := connect_of_error h
    exact {
      malformed := by
        rintro fault hf
        cases hf.symm.trans h
        exact hc
      connected := by simp [hc]
      accepted := by simp [h]
      unchanged := by simp [hc] }
  | ok key =>
    refine ⟨by simp [h], ?_, ?_, ?_⟩
    · intro session hs
      rcases connect_of_ok h with ⟨-, hc⟩ | ⟨fault, -, hc⟩
      · rw [hc] at hs
        cases hs
        exact ⟨h, Address.ofText_of_ofText h, rfl, rfl, Instant.isTimestamp_timestamp⟩
      · rw [hc] at hs
        cases hs
    · rintro key' hk
      rcases connect_of_ok h with ⟨-, hc⟩ | ⟨fault, hw, hc⟩
      · exact Or.inl ⟨_, by rw [hc]⟩
      · exact Or.inr ⟨fault, by rw [hc], fault_of_write hw⟩
    · intro fault hf
      rcases connect_of_ok h with ⟨-, hc⟩ | ⟨fault', hw, hc⟩
      · rw [hc] at hf
        cases hf
      · rw [hc]
        exact Storage.get_of_writeJson_error hw

/-- A session that was written is read. -/
lemma textSession_of_write {session : WalletSession}
    (hw : (slot.storage.writeJson slot.key session.toValue).1 = .ok ()) :
    ∃ text, (slot.storage.writeJson slot.key session.toValue).2.get slot.key = .ok (some text) ∧
      textSession slot.storage.reader (some text) = .ok (some session) := by
  obtain ⟨text, htext, hget⟩ := Storage.get_writeJson hw
  have hroom : 1 ≤ slot.storage.reader.depth :=
    le_trans (by decide) slot.storage.reader.two_le_depth
  have hread : slot.storage.reader.read text = .ok session.toValue := by
    rw [Json.eq_of_write? htext, Json.Reader.read, String.toList_ofList,
      Json.decode_encode (isPlain_toValue session _ hroom)]
  refine ⟨text, hget, ?_⟩
  rw [textSession, hread]
  exact congrArg Except.ok (WalletSession.ofValue?_toValue session)

end

/-- What a step leaves in the slot. -/
lemma get_step (h : slot.storage.get slot.key = .ok text?) (s : SessionStep) :
    ∃ text'?, (slot.step network s).2.storage.get (slot.step network s).2.key = .ok text'? ∧
      (slot.step network s).2.storage.reader = slot.storage.reader ∧
      textSession slot.storage.reader text'?
        = lastSession (textSession slot.storage.reader text?) [(slot.step network s).1] := by
  cases s with
  | connect now address signer =>
    rw [step]
    cases ha : Address.ofText address with
    | error reason =>
      rw [connect_of_error ha]
      exact ⟨text?, h, rfl, rfl⟩
    | ok key =>
      rcases connect_of_ok ha with ⟨hw, hc⟩ | ⟨fault, hw, hc⟩
      · obtain ⟨text, hget, hread⟩ := textSession_of_write hw
        rw [hc]
        exact ⟨some text, hget, Storage.reader_writeJson _ _ _, hread⟩
      -- A write that fails may leave a draft behind, so the storage is not the same; its text is.
      · rw [hc]
        exact ⟨text?, (Storage.get_of_writeJson_error hw).trans h, Storage.reader_writeJson _ _ _,
          rfl⟩
  | disconnect =>
    have hd : slot.disconnect.2 = { slot with storage := (slot.storage.remove slot.key).2 } := rfl
    rw [step, hd]
    exact ⟨none, Storage.get_remove h, Storage.reader_remove _ _, rfl⟩
  | current => exact ⟨text?, h, rfl, rfl⟩

/-! ### Runs -/

lemma lastSession_append (first : Except Fault (Option WalletSession)) (es fs : List SessionEvent) :
    lastSession first (es ++ fs) = lastSession (lastSession first fs) es := by
  induction es with
  | nil => rfl
  | cons e es ih =>
    cases e with
    | connected session => rfl
    | disconnected => rfl
    | refused fault => exact ih
    | answered session => exact ih

lemma current_after (h : slot.storage.get slot.key = .ok text?) (steps : List SessionStep) :
    (slot.after network steps).current = lastSession (textSession slot.storage.reader text?)
      (slot.events network steps).reverse := by
  induction steps generalizing slot text? with
  | nil => exact current_of_get h
  | cons s steps ih =>
    obtain ⟨text'?, hget, hreader, hlast⟩ := get_step h s
    rw [events, List.reverse_cons, lastSession_append, ← hlast, ← hreader]
    exact ih hget

/-- **The slot holds the last connection.** Whatever text is in the slot at the start, if any, and
whatever is done with it: what is read is the session of the last connection that succeeded, none if
the slot was emptied after it, and what the text at the start comes to if there was neither; and at
any time connecting is sound. -/
theorem current_lastSession (hslot : slot.storage.get slot.key = .ok text?) (network : Network)
    (steps : List SessionStep) :
    (slot.after network steps).current = lastSession (textSession slot.storage.reader text?)
        (slot.events network steps).reverse ∧
      ∀ now address signer, (slot.after network steps).ConnectsSoundly network now address signer :=
  ⟨current_after hslot steps, connectsSoundly _ network⟩

/-- A malformed address after a good one, typed in small letters, over a text that is no session. -/
theorem current_good_then_malformed :
    let slot : SessionSlot :=
      { storage := { backend := .memory [("session", "[null")] }, key := "session" }
    let typed := " gaaaaaaaaaaaaaaaaaaaaaaaaaaaaaaaaaaaaaaaaaaaaaaaaaaaawhf"
    let steps : List SessionStep :=
      [.disconnect, .connect ⟨0, 0⟩ typed .albedo, .current, .connect ⟨60, 0⟩ "GABC" .freighter]
    let session : WalletSession :=
      ⟨"GAAAAAAAAAAAAAAAAAAAAAAAAAAAAAAAAAAAAAAAAAAAAAAAAAAAAWHF", .albedo, .testnet,
        "1970-01-01T00:00:00+00:00"⟩
    slot.storage.get slot.key = .ok (some "[null") ∧
      lastSession (textSession .standard (some "[null")) (slot.events .testnet steps).reverse
        = .ok (some session) ∧
      (slot.after .testnet steps).current = .ok (some session) ∧
      ∀ now address signer,
        (slot.after .testnet steps).ConnectsSoundly .testnet now address signer := by
  intro slot typed steps session
  have hslot : slot.storage.get slot.key = .ok (some "[null") := rfl
  have hgood : Address.ofText " gaaaaaaaaaaaaaaaaaaaaaaaaaaaaaaaaaaaaaaaaaaaaaaaaaaaawhf"
      = .ok "GAAAAAAAAAAAAAAAAAAAAAAAAAAAAAAAAAAAAAAAAAAAAAAAAAAAAWHF" := by decide +kernel
  have hmalformed : Address.ofText "GABC" = .error .length := by decide +kernel
  have hlast (first : Except Fault (Option WalletSession)) :
      lastSession first (slot.events .testnet steps).reverse = .ok (some session) := by
    simp only [steps, typed, events, step, connect, sessionOf, hgood, hmalformed]
    rfl
  obtain ⟨hcurrent, hsound⟩ := current_lastSession hslot .testnet steps
  exact ⟨hslot, hlast _, hcurrent.trans (hlast _), hsound⟩

/-- A text that goes too deep is not passed over: looking for a session fails. -/
theorem current_of_deep_text :
    let text := String.ofList (Json.encode (.nested 1000))
    let slot : SessionSlot :=
      { storage := { backend := .memory [("session", text)] }, key := "session" }
    slot.storage.get slot.key = .ok (some text) ∧
      ∃ what, slot.current = .error (.tooDeep what) := by
  intro text slot
  have hslot : slot.storage.get slot.key = .ok (some text) := rfl
  obtain ⟨what, hdeep⟩ : Json.GoesTooDeep (slot.storage.reader.read text) := by
    rw [Json.Reader.read, String.toList_ofList]
    refine (Json.decode_encode_by_depth (Value.isWellFormed_nested _) ?_).2 ?_
    · rw [Value.numbers_nested]
      exact List.forall_mem_nil _
    · rw [Value.depth_nested]
      decide
  refine ⟨hslot, what, ?_⟩
  rw [current_of_get hslot, textSession, hdeep]

end SessionSlot

end StellarWallet
