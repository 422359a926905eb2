import StellarWallet.Proofs.CommandLine.Slots
import StellarWallet.Proofs.Session.LastConnect

/-!
Command lines, one after another on one storage.

The stored session changes only when connecting or disconnecting succeeds, the stored history only
when clearing does. So a session is shown as it was printed when it was connected, line by line,
whatever other commands ran in between.
-/

namespace StellarWallet

/-! ### What is printed -/

namespace Transcript

/-- The texts that a command prints, without the lines of the log. -/
def printed (t : Transcript) : String :=
  String.join (t.map fun
    | .output text => text
    | .complaint _ | .noted _ => "")

lemma printed_append (t u : Transcript) : printed (t ++ u) = printed t ++ printed u := by
  rw [printed, List.map_append, String.join_append]
  rfl

lemma printed_ofRecords (records : List LogRecord) : printed (ofRecords records) = "" := by
  induction records with
  | nil => rfl
  | cons r rs ih =>
    change String.join ("" :: _) = ""
    rw [String.join_cons, String.empty_append]
    exact ih

/-- Nothing else stands on the output unless the log goes there as well. -/
lemma output_eq_printed {s : LogSettings} (h : s.toConsole = false) (t : Transcript)
    (now : Instant) : t.output s now = t.printed := by
  refine congrArg String.join (List.map_congr_left fun e _ => ?_)
  cases e with
  | output text => rfl
  | complaint text => rfl
  | noted r => exact if_neg (by simp [h])

end Transcript

lemma CommandOutcome.printed_after (records : List LogRecord) (o : CommandOutcome) :
    (CommandOutcome.after (Transcript.ofRecords records) o).transcript.printed
      = o.transcript.printed := by
  rw [CommandOutcome.after, Transcript.printed_append, Transcript.printed_ofRecords,
    String.empty_append]

namespace WalletSession

/-- The line of a text in an object with a line for each field. -/
def fieldLine (name text : String) : String :=
  "  \"" ++ name ++ "\": " ++ String.ofList (Json.quote text)

/-- A session on lines of its own: what is connected, by what, where, and since when. -/
def shown (s : WalletSession) : String :=
  "\x7b\n" ++ fieldLine "publicKey" s.address ++ ",\n"
    ++ fieldLine "walletType" (Vocabulary.name s.signer) ++ ",\n"
    ++ fieldLine "network" (Vocabulary.name s.network) ++ ",\n"
    ++ fieldLine "connectedAt" s.connectedAt ++ "\n\x7d\n"

lemma jsonText_toValue (s : WalletSession) : Command.jsonText s.toValue = s.shown := by
  refine String.toList_inj.1 ?_
  simp only [shown, fieldLine, String.toList_append, String.toList_ofList, Command.jsonText,
    Json.lines, toValue, Json.encodeLines, Json.encodeFieldLines, List.append_assoc,
    List.cons_append]
  rfl

end WalletSession

namespace SessionSlot

/-- A session that was connected is the one asked for, and it is read. -/
lemma current_of_connect {slot : SessionSlot} {network : Network} {now : Instant}
    {address : String} {signer : Signer} {session : WalletSession}
    (h : (slot.connect network now address signer).1 = .ok session) :
    sessionOf network now address signer = .ok session ∧
      current { slot with storage := (slot.connect network now address signer).2.storage }
        = .ok (some session) := by
  cases ha : Address.ofText address with
  | error reason =>
    rw [connect_of_error ha] at h
    cases h
  | ok key =>
    rcases connect_of_ok ha with ⟨hw, hc⟩ | ⟨fault, hw, hc⟩
    · rw [hc] at h ⊢
      cases h
      obtain ⟨text, hget, hread⟩ := textSession_of_write hw
      refine ⟨by rw [sessionOf, ha], (current_of_get hget).trans ?_⟩
      rw [← hread]
      exact congrArg (textSession · _) (Storage.reader_writeJson _ _ _)
    · rw [hc] at h
      cases h

end SessionSlot

/-- The environment gives log and slots a place and has links to the explorers. -/
structure Environment.IsUsable (env : Environment) : Prop where
  log : (LogSettings.ofEnvironment env >>= (·.folder env)).isOk = true
  slots : (WalletSettings.ofEnvironment env >>= (·.slotDirectory env)).isOk = true
  links : (WalletSettings.ofEnvironment env >>=
    fun s => s.links.mapError ExplorerFault.toFault).isOk = true

lemma eq_ok_of_isOk {ε α : Type} {x : Except ε α} (h : x.isOk = true) : ∃ a, x = .ok a := by
  cases x with
  | error fault => cases h
  | ok a => exact ⟨a, rfl⟩

lemma Wallet.session_of_connect {w : Wallet} {now : Instant} {address : String} {signer : Signer}
    {session : WalletSession} (h : (w.connect now address signer).1 = .ok session) :
    SessionSlot.sessionOf w.settings.network now address signer = .ok session ∧
      (w.connect now address signer).2.session = .ok (some session) :=
  SessionSlot.current_of_connect h

namespace Command

open Wallet (sessionKey historyKey)

variable {w : Wallet} {j : Journal} {storage : Storage} {around : Surroundings}
  {connected : WalletSession}

lemma ReadsHistory.exists_load (h : ReadsHistory storage) :
    ∃ history, History.load storage = .ok history := by
  obtain ⟨v, hv⟩ := h
  refine ⟨{ storage, entries := atMost 50 (History.readEntries v) }, ?_⟩
  rw [historyKey] at hv
  rw [History.load, hv]
  rfl

/-- In a usable environment the wallet opens if its history can be read. -/
lemma openWallet_of_isUsable {env : Environment} (h : env.IsUsable) (hread : ReadsHistory storage) :
    ∃ w, openWallet env storage = .ok w := by
  obtain ⟨_, hlog⟩ := eq_ok_of_isOk h.log
  obtain ⟨logs, hlogs, hfolder⟩ := bind_eq_ok hlog
  obtain ⟨_, hslots⟩ := eq_ok_of_isOk h.slots
  obtain ⟨settings, hsettings, hplace⟩ := bind_eq_ok hslots
  have hlinks := h.links
  rw [hsettings, ok_bind] at hlinks
  obtain ⟨links, hlinks⟩ := eq_ok_of_isOk hlinks
  obtain ⟨history, hhistory⟩ := hread.exists_load
  refine ⟨⟨settings, { history, links }⟩, ?_⟩
  rw [openWallet, hlogs, ok_bind, hfolder, ok_bind, hsettings, ok_bind, hplace, ok_bind,
    Wallet.ofStorage, hlinks, hhistory]
  rfl

lemma printed_written (text : String) : (written w j (.ok text)).transcript.printed = text := by
  change String.join [text] = text
  rw [String.join_cons]
  exact String.append_empty

/-- A connection that succeeds prints the session that is read from then on. -/
lemma runConnect_of_ok {now : Instant} {address : Option String} {signer : Signer}
    (h : (runConnect w now j address signer).ending = .ok 0) :
    ∃ text session, address = some text ∧
      SessionSlot.sessionOf w.settings.network now text signer = .ok session ∧
      (runConnect w now j address signer).transcript.printed = session.shown ∧
      SessionSlot.current { storage := (runConnect w now j address signer).storage }
        = .ok (some session) := by
  unfold runConnect at h ⊢
  split at h
  · cases h
  · next text htext =>
    split at h
    · next session w' hw =>
      obtain ⟨hsession, hcurrent⟩ : _ ∧ (w.connect now text signer).2.session
          = .ok (some session) := Wallet.session_of_connect (congrArg Prod.fst hw)
      rw [hw] at hcurrent
      refine ⟨text, session, (Option.filter_eq_some_iff.1 htext).1, hsession, ?_, hcurrent⟩
      rw [← session.jsonText_toValue]
      exact (CommandOutcome.printed_after _ _).trans (printed_written _)
    · split at h
      · cases h
      · cases h

lemma runCurrent_of_session (h : w.session = .ok (some connected)) :
    (runCurrent w j).ending = .ok 0 ∧ (runCurrent w j).transcript.printed = connected.shown := by
  unfold runCurrent
  rw [h, ← connected.jsonText_toValue]
  exact ⟨rfl, (CommandOutcome.printed_after _ _).trans (printed_written _)⟩

lemma run_of_openWallet {c : Command} (h : openWallet around.env storage = .ok w) :
    c.run around storage j
      = CommandOutcome.after (Transcript.ofRecords (c.startNotes storage))
          (c.runOn w around j) := by
  rw [run, h]

lemma run_connect_of_ok {address : Option String} {signer : Signer}
    (h : ((Command.session .connect address signer).run around storage j).ending = .ok 0) :
    ∃ text settings session, address = some text ∧
      WalletSettings.ofEnvironment around.env = .ok settings ∧
      SessionSlot.sessionOf settings.network around.now text signer = .ok session ∧
      ((Command.session .connect address signer).run around storage j).transcript.printed
        = session.shown ∧
      SessionSlot.current
        { storage := ((Command.session .connect address signer).run around storage j).storage }
        = .ok (some session) ∧ ReadsHistory storage := by
  cases hopen : openWallet around.env storage with
  | error fault =>
    rw [run, hopen] at h
    cases h
  | ok w =>
    rw [run_of_openWallet hopen] at h ⊢
    obtain ⟨text, session, htext, hsession, hprinted, hcurrent⟩ := runConnect_of_ok h
    refine ⟨text, w.settings, session, htext, (openWallet_spec hopen).1, hsession, ?_, hcurrent,
      readsHistory_of_openWallet hopen⟩
    rw [CommandOutcome.printed_after]
    exact hprinted

lemma run_current_of_session {address : Option String} {signer : Signer}
    (henv : around.env.IsUsable) (hread : ReadsHistory storage)
    (h : SessionSlot.current { storage } = .ok (some connected)) :
    ((Command.session .current address signer).run around storage j).ending = .ok 0 ∧
      ((Command.session .current address signer).run around storage j).transcript.printed
        = connected.shown := by
  obtain ⟨w, hopen⟩ := openWallet_of_isUsable henv hread
  obtain ⟨rfl, -⟩ := openWallet_eq_ok hopen
  rw [run_of_openWallet hopen, CommandOutcome.printed_after]
  exact runCurrent_of_session h

end Command

/-! ### Command lines, one after another -/

/-- A command line and what its command may look at. -/
structure Invocation where
  arguments : List String
  around : Surroundings

namespace Invocation

open Wallet (sessionKey historyKey)

/-- The command of the command line, if it is one. -/
def command? (i : Invocation) : Option Command := (Command.ofArguments i.arguments).toOption

/-- What it comes to on a storage. -/
def outcome? (i : Invocation) (s : Storage) : Option CommandOutcome :=
  i.command?.map fun c => c.run i.around s []

/-- The storage that it leaves. A command line that is no command does nothing. -/
def leaves (s : Storage) (i : Invocation) : Storage := ((i.outcome? s).map (·.storage)).getD s

/-- The storage that some leave, one after another. -/
def after (s : Storage) (is : List Invocation) : Storage := is.foldl leaves s

/-- Its command ends with exit code zero. -/
def Succeeds (i : Invocation) (s : Storage) : Prop :=
  (i.outcome? s).map (·.ending) = some (.ok 0)

/-- What its command prints. -/
def printed (i : Invocation) (s : Storage) : String :=
  ((i.outcome? s).map (·.transcript.printed)).getD ""

def IsConnect (i : Invocation) : Prop :=
  ∃ address signer, i.command? = some (.session .connect address signer)

/-- It asks to connect this session: the normal form of its address, with its signer, on the network
of its environment, at its time. -/
def AsksFor (i : Invocation) (session : WalletSession) : Prop :=
  ∃ address signer settings, i.command? = some (.session .connect (some address) signer) ∧
    WalletSettings.ofEnvironment i.around.env = .ok settings ∧
    SessionSlot.sessionOf settings.network i.around.now address signer = .ok session

def IsDisconnect (i : Invocation) : Prop :=
  ∃ address signer, i.command? = some (.session .disconnect address signer)

def IsShow (i : Invocation) : Prop :=
  ∃ address signer, i.command? = some (.session .current address signer)

/-- It connects or disconnects, and with success. -/
def SetsSession (i : Invocation) (s : Storage) : Prop :=
  i.Succeeds s ∧ (i.IsConnect ∨ i.IsDisconnect)

/-- It clears the history, and with success. -/
def ClearsHistory (i : Invocation) (s : Storage) : Prop :=
  i.Succeeds s ∧ i.command? = some .clearHistory

/-- None of some command lines, one after another, sets the session. -/
def SpareSession (s : Storage) : List Invocation → Prop
  | [] => True
  | i :: is => ¬ i.SetsSession s ∧ SpareSession (leaves s i) is

variable {i : Invocation} {s : Storage} {c : Command}

lemma outcome?_eq (hc : i.command? = some c) : i.outcome? s = some (c.run i.around s []) := by
  rw [outcome?, hc]
  rfl

lemma leaves_eq (hc : i.command? = some c) : leaves s i = (c.run i.around s []).storage := by
  rw [leaves, outcome?_eq hc]
  rfl

lemma printed_eq (hc : i.command? = some c) :
    i.printed s = (c.run i.around s []).transcript.printed := by
  rw [printed, outcome?_eq hc]
  rfl

lemma succeeds_iff (hc : i.command? = some c) :
    i.Succeeds s ↔ (c.run i.around s []).ending = .ok 0 := by
  rw [Succeeds, outcome?_eq hc]
  exact Option.some_inj

/-- A command line sets the session or leaves its slot as it was. -/
lemma content_session_of_not_sets (h : ¬ i.SetsSession s) :
    (leaves s i).content sessionKey = s.content sessionKey := by
  cases hc : i.command? with
  | none => rw [leaves, outcome?, hc]; rfl
  | some c =>
    rw [leaves_eq hc]
    refine Command.content_run (Or.inl rfl) ?_
    rintro ⟨hslot, hok⟩
    refine h ⟨(succeeds_iff hc).2 hok, ?_⟩
    obtain ⟨address, signer, rfl | rfl⟩ := Command.eq_of_slot?_session hslot
    · exact Or.inl ⟨address, signer, hc⟩
    · exact Or.inr ⟨address, signer, hc⟩

/-- A command line clears the history or leaves its slot as it was. -/
lemma content_history_of_not_clears (h : ¬ i.ClearsHistory s) :
    (leaves s i).content historyKey = s.content historyKey := by
  cases hc : i.command? with
  | none => rw [leaves, outcome?, hc]; rfl
  | some c =>
    rw [leaves_eq hc]
    refine Command.content_run (Or.inr rfl) ?_
    rintro ⟨hslot, hok⟩
    obtain rfl := Command.eq_of_slot?_history hslot
    exact h ⟨(succeeds_iff hc).2 hok, hc⟩

lemma content_after_of_spare {is : List Invocation} (h : SpareSession s is) :
    (after s is).content sessionKey = s.content sessionKey := by
  induction is generalizing s with
  | nil => rfl
  | cons i is ih => exact (ih h.2).trans (content_session_of_not_sets h.1)

lemma reader_leaves (s : Storage) (i : Invocation) : (leaves s i).reader = s.reader := by
  cases hc : i.command? with
  | none => rw [leaves, outcome?, hc]; rfl
  | some c =>
    rw [leaves_eq hc]
    exact Command.reader_run c _ _ _

lemma reader_after (s : Storage) (is : List Invocation) : (after s is).reader = s.reader := by
  induction is generalizing s with
  | nil => rfl
  | cons i is ih => exact (ih (leaves s i)).trans (reader_leaves s i)

lemma readsHistory_leaves (h : Command.ReadsHistory s) (i : Invocation) :
    Command.ReadsHistory (leaves s i) := by
  cases hc : i.command? with
  | none => rwa [leaves, outcome?, hc]
  | some c =>
    rw [leaves_eq hc]
    exact h.run c _ _

lemma readsHistory_after (h : Command.ReadsHistory s) (is : List Invocation) :
    Command.ReadsHistory (after s is) := by
  induction is generalizing s with
  | nil => exact h
  | cons i is ih => exact ih (readsHistory_leaves h i)

lemma current_of_connect (hconnect : i.IsConnect) (hok : i.Succeeds s) :
    ∃ session, i.AsksFor session ∧ i.printed s = session.shown ∧
      SessionSlot.current { storage := leaves s i } = .ok (some session) ∧
      Command.ReadsHistory (leaves s i) := by
  obtain ⟨address, signer, hc⟩ := hconnect
  obtain ⟨text, settings, session, rfl, hsettings, hsession, hprinted, hcurrent, hread⟩ :=
    Command.run_connect_of_ok ((succeeds_iff hc).1 hok)
  refine ⟨session, ⟨text, signer, settings, hc, hsettings, hsession⟩, ?_, ?_,
    readsHistory_leaves hread i⟩
  · rw [printed_eq hc]
    exact hprinted
  · rw [leaves_eq hc]
    exact hcurrent

lemma printed_of_show {session : WalletSession} (hshow : i.IsShow) (henv : i.around.env.IsUsable)
    (hread : Command.ReadsHistory s)
    (h : SessionSlot.current { storage := s } = .ok (some session)) :
    i.Succeeds s ∧ i.printed s = session.shown := by
  obtain ⟨address, signer, hc⟩ := hshow
  rw [succeeds_iff hc, printed_eq hc]
  exact Command.run_current_of_session henv hread h

/-- **Commands keep to their slots.** After any command lines on any storage, a command line changes
the slot of the session only if it connects or disconnects, the slot of the history only if it
clears, and either only if it ends with exit code zero; else the slots hold what they held, byte for
byte. And a connection prints the lines of the session that was asked for, and any later command
that shows the session prints the same, unless the session was set in between. -/
theorem commands_keep_to_their_slots (first : Storage) (past : List Invocation) (i : Invocation) :
    let s := after first past
    (¬ i.SetsSession s → (leaves s i).content sessionKey = s.content sessionKey) ∧
      (¬ i.ClearsHistory s → (leaves s i).content historyKey = s.content historyKey) ∧
      (i.IsConnect → i.Succeeds s → ∃ session, i.AsksFor session ∧
        i.printed s = session.shown ∧ ∀ later, SpareSession (leaves s i) later →
          ∀ last : Invocation, last.IsShow → last.around.env.IsUsable →
            last.Succeeds (after (leaves s i) later) ∧
              last.printed (after (leaves s i) later) = session.shown) := by
  intro s
  refine ⟨content_session_of_not_sets, content_history_of_not_clears, ?_⟩
  intro hconnect hok
  obtain ⟨session, hasks, hprinted, hcurrent, hhistory⟩ := current_of_connect hconnect hok
  refine ⟨session, hasks, hprinted, fun later hspare last hshow henv => ?_⟩
  have hread : SessionSlot.current { storage := after (leaves s i) later }
      = .ok (some session) := by
    rw [← hcurrent, SessionSlot.current, SessionSlot.current]
    exact congrArg (Except.map _)
      (Storage.readJson_congr (content_after_of_spare hspare) (reader_after _ later))
  exact printed_of_show hshow henv (readsHistory_after hhistory later) hread

/-- The session file is no JSON text at first and balances cannot be had; after the connection,
typed in small letters, the history is cleared and a second connection is refused. -/
theorem session_shown_after_refusal :
    let around : Surroundings :=
      ⟨[("HOME", "/home/me")], ⟨0, 0⟩, { server := fun _ _ => .failure ⟨.timeout, ""⟩ }⟩
    let first : Storage := { backend := .files [("arena_wallet_session.json", .file [91])] }
    let failing : Invocation := ⟨["balances", "GABC"], around⟩
    let connect : Invocation :=
      ⟨["session", "connect", " gaaaaaaaaaaaaaaaaaaaaaaaaaaaaaaaaaaaaaaaaaaaaaaaaaaaawhf"], around⟩
    let clear : Invocation := ⟨["clear-history"], around⟩
    let refused : Invocation := ⟨["session", "connect", "GABC"], around⟩
    let last : Invocation := ⟨["session"], around⟩
    let s := after first [failing]
    let t := after (leaves s connect) [clear, refused]
    ¬ failing.SetsSession first ∧ s.content sessionKey = .inr (some (.file [91])) ∧
      connect.Succeeds s ∧ SpareSession (leaves s connect) [clear, refused] ∧
      last.Succeeds t ∧ last.printed t = connect.printed s := by
  intro around first failing connect clear refused last s t
  have hfailing : failing.command? = some (.balances "GABC" false) := by decide +kernel
  have hconnect : connect.command? = some (.session .connect
      (some " gaaaaaaaaaaaaaaaaaaaaaaaaaaaaaaaaaaaaaaaaaaaaaaaaaaaawhf") .freighter) := by
    decide +kernel
  have hclear : clear.command? = some .clearHistory := by decide +kernel
  have hlast : last.command? = some (.session .current none .freighter) := by decide +kernel
  have hok : connect.Succeeds s := by unfold Succeeds; decide +kernel
  have hspare : SpareSession (leaves s connect) [clear, refused] := by
    refine ⟨?_, ?_, trivial⟩
    · rintro ⟨-, ⟨_, _, hc⟩ | ⟨_, _, hc⟩⟩
      · cases hclear.symm.trans hc
      · cases hclear.symm.trans hc
    · rintro ⟨hc, -⟩
      revert hc
      unfold Succeeds
      decide +kernel
  have hfirst : ¬ failing.SetsSession first := by
    rintro ⟨-, ⟨_, _, hc⟩ | ⟨_, _, hc⟩⟩
    · cases hfailing.symm.trans hc
    · cases hfailing.symm.trans hc
  have henv : last.around.env.IsUsable :=
    ⟨by decide +kernel, by decide +kernel, by decide +kernel⟩
  obtain ⟨hkept, -⟩ := commands_keep_to_their_slots first [] failing
  have hcontent : s.content sessionKey = .inr (some (.file [91])) := hkept hfirst
  obtain ⟨-, -, hshown⟩ := commands_keep_to_their_slots first [failing] connect
  obtain ⟨session, -, hprinted, hlater⟩ := hshown ⟨_, _, hconnect⟩ hok
  obtain ⟨hlastok, hlastprinted⟩ := hlater _ hspare last ⟨_, _, hlast⟩ henv
  exact ⟨hfirst, hcontent, hok, hspare, hlastok, hlastprinted.trans hprinted.symm⟩

end Invocation

end StellarWallet
