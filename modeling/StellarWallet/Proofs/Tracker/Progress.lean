import StellarWallet.Proofs.Tracker.Frame

/-!
What a step makes of the call that takes it.

`Call.next` is the part of a step that concerns the call alone. On a quiet history a step does just
that, and adds a record to the history exactly when the call ends by it; the tracker is needed for
its links only.
-/

namespace StellarWallet

/-- What a single call may do once it has been started. -/
inductive CallStep where
  | setPhase (phase : TxPhase)
  | finishWork (ending : Ending WorkResult)
  | finishConfirmation (ending : Ending Unit)

/-- A kind among the fields is missing, null or a text. -/
def WorkResult.KindIsText : WorkResult → Prop
  | .fields fs => ∀ v, Fields.lookup "kind" fs = some v → v = .null ∨ ∃ s, v = .text s
  | _ => True

def Ending.KindIsText : Ending WorkResult → Prop
  | .returned r => r.KindIsText
  | _ => True

def CallStep.KindIsText : CallStep → Prop
  | .finishWork ending => ending.KindIsText
  | _ => True

namespace Call

/-- One step of a call. -/
def step (c : Call) (t : Tracker) : CallStep → Call × Tracker
  | .setPhase phase => c.setPhase t phase
  | .finishWork ending => c.finishWork t ending
  | .finishConfirmation ending => c.finishConfirmation t ending

/-- The call in a phase that is not before its own. -/
def moved (c : Call) (phase : TxPhase) : Call :=
  if c.isEnded ∨ phase < c.phase then c
  else { c with entry := { c.entry with phase := some phase }, phase }

def failed (c : Call) (reason : String) (outcome : CallOutcome) : Call :=
  { c with entry := { c.entry with status := .failed, reason := .text reason }
           stage := .ended outcome }

def refused (c : Call) (fault : Fault) : Call :=
  c.failed (Reason.ofFault fault) (.fault ⟨.transaction, Reason.ofFault fault⟩)

def abandoned (c : Call) : Call := c.failed cancelReason .cancelled

def ofKind (c : Call) (kind : RecordedKind) : Call := { c with entry := { c.entry with kind } }

/-- The move out of the first phase that a submission makes. -/
def leaveSigning (c : Call) : Call := if c.phase = .signing then c.moved .submitted else c

def hashed (c : Call) (hash : String) : Call :=
  { c with entry := { c.entry with hash := .text hash } }

def linked (c : Call) (hash link : String) : Call :=
  { c with entry := { c.entry with link := .text link }, stage := .confirming hash }

def submitted (c : Call) (links : ExplorerLinks) (hash : String) (kind : TxKind) : Call :=
  (c.hashed hash).leaveSigning.linked hash (links.link kind hash)

def received (c : Call) (links : ExplorerLinks) (result : WorkResult) : Call :=
  match result.extract c.entry.kind with
  | .error fault => c.refused fault
  | .ok (.text s, .known kind) =>
    if s = "" then (c.ofKind (.known kind)).refused noHash
    else (c.ofKind (.known kind)).submitted links s kind
  | .ok (_, kind) => (c.ofKind kind).refused noHash

def confirmed (c : Call) (hash : String) : Call :=
  let c := c.moved .confirmed
  { c with entry := { c.entry with status := .success }, stage := .ended (.hash hash) }

/-- What a step makes of a call whose record can be made. -/
def next (links : ExplorerLinks) (c : Call) : CallStep → Call
  | .setPhase phase => c.moved phase
  | .finishWork ending =>
    match c.stage, ending with
    | .working, .returned result => c.received links result
    | .working, .raised fault => c.refused fault
    | .working, .cancelled => c.abandoned
    | _, _ => c
  | .finishConfirmation ending =>
    match c.stage, ending with
    | .confirming hash, .returned () => c.confirmed hash
    | .confirming _, .raised fault => c.refused fault
    | .confirming _, .cancelled => c.abandoned
    | _, _ => c

variable {c : Call} {t : Tracker}

@[simp] lemma moved_kind (c : Call) (phase : TxPhase) :
    (c.moved phase).entry.kind = c.entry.kind := by
  unfold moved
  split <;> rfl

@[simp] lemma moved_stage (c : Call) (phase : TxPhase) : (c.moved phase).stage = c.stage := by
  unfold moved
  split <;> rfl

@[simp] lemma leaveSigning_kind (c : Call) : c.leaveSigning.entry.kind = c.entry.kind := by
  unfold leaveSigning
  split <;> simp

@[simp] lemma submitted_kind (c : Call) (links : ExplorerLinks) (hash : String) (kind : TxKind) :
    (c.submitted links hash kind).entry.kind = c.entry.kind := by
  simp [submitted, linked, hashed]

@[simp] lemma confirmed_kind (c : Call) (hash : String) :
    (c.confirmed hash).entry.kind = c.entry.kind := by
  simp [confirmed]

lemma setPhase_eq (c : Call) (t : Tracker) (phase : TxPhase) :
    (c.setPhase t phase).1 = c.moved phase ∧ (c.setPhase t phase).2.history = t.history ∧
      (c.setPhase t phase).2.links = t.links := by
  unfold setPhase moved
  split
  · exact ⟨rfl, rfl, rfl⟩
  · exact ⟨rfl, by simp, by simp⟩

/-- The call has become `c'`, and its entry has been recorded. -/
def Records (c' : Call) (t : Tracker) (r : Call × Tracker) : Prop :=
  r.1 = c' ∧ t.Holds r.2 (t.history.record c'.entry)

/-- The call has become `c'`, and nothing has been recorded. -/
def Carries (c' : Call) (t : Tracker) (r : Call × Tracker) : Prop :=
  r.1 = c' ∧ t.Holds r.2 t.history.entries

lemma endFailed_of_quiet (hq : t.history.Quiet) (hk : c.entry.kind.IsKnown) (reason : String)
    (outcome : CallOutcome) :
    Records (c.failed reason outcome) t (c.endFailed t reason outcome) := by
  let e : HistoryEntry := { c.entry with status := .failed, reason := .text reason }
  have hq' : (t.refresh e).history.Quiet := by simpa using hq
  obtain ⟨hok, hh⟩ := Tracker.commit_of_quiet hq' (e := e) hk
  have hd : c.endFailed t reason outcome
      = (c.failed reason outcome, ((t.refresh e).commit e).2) := by
    simp only [endFailed, failed, e, hok]
  rw [Records, hd]
  refine ⟨rfl, ?_, ?_, ?_, hh.quiet⟩
  · simpa [History.record, failed] using hh.entries
  · simpa using hh.maxItems
  · simpa using hh.links

lemma raise_of_quiet (hq : t.history.Quiet) (hk : c.entry.kind.IsKnown) (fault : Fault) :
    Records (c.refused fault) t (c.raise t fault) := endFailed_of_quiet hq hk _ _

lemma cancel_of_quiet (hq : t.history.Quiet) (hk : c.entry.kind.IsKnown) :
    Records c.abandoned t (c.cancel t) := endFailed_of_quiet hq hk _ _

/-- A call and its tracker after leaving the first phase. -/
def leave (c : Call) (t : Tracker) : Call × Tracker :=
  if c.phase = .signing then c.setPhase t .submitted else (c, t)

lemma leave_eq (c : Call) (t : Tracker) :
    (c.leave t).1 = c.leaveSigning ∧ (c.leave t).2.history = t.history ∧
      (c.leave t).2.links = t.links := by
  unfold leave leaveSigning
  split
  · exact setPhase_eq c t .submitted
  · exact ⟨rfl, rfl, rfl⟩

lemma submit_eq (c : Call) (t : Tracker) (hash : String) :
    c.submit t hash =
      let r := (c.hashed hash).leave t
      match r.2.links.recordedLink r.1.entry.kind hash with
      | .error fault => r.1.raise r.2 fault
      | .ok link => (r.1.linked hash link, r.2.refresh (r.1.linked hash link).entry) := rfl

lemma submit_of_quiet (hq : t.history.Quiet) {kind : TxKind} (hk : c.entry.kind = .known kind)
    (hash : String) : Carries (c.submitted t.links hash kind) t (c.submit t hash) := by
  obtain ⟨hc, hh, hl⟩ := leave_eq (c.hashed hash) t
  have hk' : (c.hashed hash).leaveSigning.entry.kind = .known kind := by
    rw [leaveSigning_kind]; exact hk
  have hs : c.submit t hash = (c.submitted t.links hash kind,
      ((c.hashed hash).leave t).2.refresh (c.submitted t.links hash kind).entry) := by
    rw [submit_eq]
    simp only [hc, hl, hk', ExplorerLinks.recordedLink, submitted]
  rw [Carries, hs]
  exact ⟨rfl, Tracker.Holds.of_history hq (by simpa using hh) (by simpa using hl)⟩

lemma succeed_of_quiet (hq : t.history.Quiet) (hk : c.entry.kind.IsKnown) (hash : String) :
    Records (c.confirmed hash) t (c.succeed t hash) := by
  obtain ⟨hc, hh, hl⟩ := setPhase_eq c t .confirmed
  have hq' : ((c.setPhase t .confirmed).2.refresh (c.confirmed hash).entry).history.Quiet := by
    simpa [hh] using hq
  obtain ⟨hok, hr⟩ :=
    Tracker.commit_of_quiet hq' (e := (c.confirmed hash).entry) (by simpa using hk)
  have hs : c.succeed t hash = (c.confirmed hash,
      (((c.setPhase t .confirmed).2.refresh (c.confirmed hash).entry).commit
        (c.confirmed hash).entry).2) := by
    simp only [confirmed] at hok ⊢
    simp only [succeed, hc]
    split
    · next hm => rw [hm]
    · next hm => rw [hm] at hok; cases hok
  rw [Records, hs]
  refine ⟨rfl, ?_, ?_, ?_, hr.quiet⟩
  · simpa [History.record, hh] using hr.entries
  · simpa [hh] using hr.maxItems
  · simpa [hl] using hr.links

/-- The call has become `c'`, and its entry has been recorded if the call has ended. -/
def Settles (c' : Call) (t : Tracker) (r : Call × Tracker) : Prop :=
  r.1 = c' ∧ t.Holds r.2 (if c'.isEnded then t.history.record c'.entry else t.history.entries)

lemma Records.settles {c' : Call} {r : Call × Tracker} (h : Records c' t r)
    (he : c'.isEnded = true) : Settles c' t r := by
  rw [Settles, if_pos he]
  exact h

lemma Carries.settles {c' : Call} {r : Call × Tracker} (h : Carries c' t r)
    (he : c'.isEnded = false) : Settles c' t r := by
  rw [Settles, he]
  exact h

lemma name_of_read {s : String} {kind : TxKind} (h : Vocabulary.read TxKind (.text s) = .ok kind) :
    s = Vocabulary.name kind := by
  unfold Vocabulary.read Vocabulary.ofValue at h
  cases hs : Vocabulary.ofName? TxKind s with
  | none => simp [Value.text?, hs, Except.mapError] at h
  | some k =>
    simp only [Value.text?, hs, Except.mapError, Option.bind_some, Except.ok.injEq] at h
    have := List.find?_some hs
    rw [← h]
    exact (of_decide_eq_true this).symm

/-- What an object of fields hands over, by its two fields. -/
lemma extract_fields {fs : List (String × Value)} {kind kind' : RecordedKind} {v : Value}
    (h : (WorkResult.fields fs).extract kind = .ok (v, kind')) :
    (Fields.lookup "hash" fs).getD .null = v ∧
      WorkResult.reportedKind ((Fields.lookup "kind" fs).getD .null) kind = .ok kind' := by
  simp only [WorkResult.extract] at h
  cases hr : WorkResult.reportedKind ((Fields.lookup "kind" fs).getD .null) kind with
  | error fault => rw [hr] at h; cases h
  | ok k =>
    rw [hr] at h
    obtain ⟨h₁, h₂⟩ := Prod.mk.inj (Except.ok.inj h)
    exact ⟨h₁, congrArg Except.ok h₂⟩

/-- A kind among the fields is the name of one, or else there is none. -/
lemma reportedKind_cases {fs : List (String × Value)} {kind kind' : RecordedKind}
    (hn : (WorkResult.fields fs).KindIsText)
    (h : WorkResult.reportedKind ((Fields.lookup "kind" fs).getD .null) kind = .ok kind') :
    (Fields.lookup "kind" fs).getD .null = .null ∧ kind' = kind ∨
      ∃ k, Fields.lookup "kind" fs = some (.text (Vocabulary.name k)) ∧ kind' = .known k := by
  rcases hf : Fields.lookup "kind" fs with _ | w
  · rw [hf] at h
    cases h
    exact Or.inl ⟨rfl, rfl⟩
  · rw [hf, Option.getD_some] at h
    rcases hn w hf with rfl | ⟨s, rfl⟩
    · cases h
      exact Or.inl ⟨rfl, rfl⟩
    · simp only [WorkResult.reportedKind] at h
      cases hv : Vocabulary.read TxKind (.text s) with
      | error fault => rw [hv] at h; cases h
      | ok k =>
        rw [hv] at h
        cases h
        exact Or.inr ⟨k, by rw [name_of_read hv], rfl⟩

lemma extract_isKnown {r : WorkResult} {kind kind' : RecordedKind} {v : Value}
    (hn : r.KindIsText) (hk : kind.IsKnown) (h : r.extract kind = .ok (v, kind')) :
    kind'.IsKnown := by
  cases r with
  | plain s =>
    cases h
    exact hk
  | tracked hash reported =>
    cases reported with
    | none => cases h; exact hk
    | some k => cases h; exact ⟨k, rfl⟩
  | other w => cases h; exact hk
  | fields fs =>
    rcases reportedKind_cases hn (extract_fields h).2 with ⟨-, rfl⟩ | ⟨k, -, rfl⟩
    · exact hk
    · exact ⟨k, rfl⟩

lemma receive_of_quiet (hq : t.history.Quiet) (hk : c.entry.kind.IsKnown) {result : WorkResult}
    (hn : result.KindIsText) : Settles (c.received t.links result) t (c.receive t result) := by
  unfold received receive
  rcases he : result.extract c.entry.kind with fault | ⟨v, kind⟩
  · exact (raise_of_quiet hq hk fault).settles rfl
  · obtain ⟨kind, rfl⟩ := extract_isKnown hn hk he
    have hk' : (c.ofKind (.known kind)).entry.kind.IsKnown := ⟨kind, rfl⟩
    cases v with
    | text s =>
      dsimp only
      split
      · exact (raise_of_quiet hq hk' noHash).settles rfl
      · exact (submit_of_quiet hq rfl s).settles rfl
    | _ => exact (raise_of_quiet hq hk' noHash).settles rfl

lemma exists_outcome (h : c.isEnded = true) : ∃ outcome, c.stage = .ended outcome := by
  cases hs : c.stage with
  | ended outcome => exact ⟨outcome, rfl⟩
  | working => simp [isEnded, hs] at h
  | confirming hash => simp [isEnded, hs] at h

/-- A call that has ended stays as it is. -/
lemma next_of_ended (links : ExplorerLinks) (h : c.isEnded = true) (s : CallStep) :
    c.next links s = c := by
  obtain ⟨outcome, hs⟩ := exists_outcome h
  cases s with
  | setPhase phase => simp [next, moved, h]
  | finishWork ending => simp [next, hs]
  | finishConfirmation ending => simp [next, hs]

lemma step_of_ended (h : c.isEnded = true) (t : Tracker) (s : CallStep) : c.step t s = (c, t) := by
  obtain ⟨outcome, hs⟩ := exists_outcome h
  cases s with
  | setPhase phase => simp [step, setPhase, h]
  | finishWork ending => simp [step, finishWork, hs]
  | finishConfirmation ending => simp [step, finishConfirmation, hs]

@[simp] lemma moved_isEnded (c : Call) (phase : TxPhase) : (c.moved phase).isEnded = c.isEnded := by
  simp [isEnded]

/-- A step of a call that has not ended. -/
lemma step_settles (hq : t.history.Quiet) (hk : c.entry.kind.IsKnown) {s : CallStep}
    (hn : s.KindIsText) (he : c.isEnded = false) : Settles (c.next t.links s) t (c.step t s) := by
  have hstay : Settles c t (c, t) :=
    Carries.settles ⟨rfl, Tracker.Holds.of_history hq rfl rfl⟩ he
  cases s with
  | setPhase phase =>
    obtain ⟨hc, hh, hl⟩ := setPhase_eq c t phase
    exact Carries.settles ⟨hc, Tracker.Holds.of_history hq hh hl⟩ (by simp [next, he])
  | finishWork ending =>
    simp only [next, step, finishWork]
    cases c.stage with
    | working =>
      cases ending with
      | returned result => exact receive_of_quiet hq hk hn
      | raised fault => exact (raise_of_quiet hq hk fault).settles rfl
      | cancelled => exact (cancel_of_quiet hq hk).settles rfl
    | confirming hash => exact hstay
    | ended outcome => exact hstay
  | finishConfirmation ending =>
    simp only [next, step, finishConfirmation]
    cases c.stage with
    | confirming hash =>
      cases ending with
      | returned a => exact (succeed_of_quiet hq hk hash).settles rfl
      | raised fault => exact (raise_of_quiet hq hk fault).settles rfl
      | cancelled => exact (cancel_of_quiet hq hk).settles rfl
    | working => exact hstay
    | ended outcome => exact hstay

/-- On a quiet history a step makes of the call what it makes of the call alone, and the entry of
the call is recorded exactly when the call ends by it. -/
theorem step_of_quiet (hq : t.history.Quiet) (hk : c.entry.kind.IsKnown) {s : CallStep}
    (hn : s.KindIsText) :
    (c.step t s).1 = c.next t.links s ∧
      t.Holds (c.step t s).2 (if c.isEnded = false ∧ (c.next t.links s).isEnded
        then t.history.record (c.next t.links s).entry else t.history.entries) := by
  cases he : c.isEnded with
  | false => simpa [Settles] using step_settles hq hk hn he
  | true =>
    rw [step_of_ended he, next_of_ended _ he]
    exact ⟨rfl, by simpa using Tracker.Holds.of_history hq rfl rfl⟩

lemma received_isKnown (hk : c.entry.kind.IsKnown) (links : ExplorerLinks) {result : WorkResult}
    (hn : result.KindIsText) : (c.received links result).entry.kind.IsKnown := by
  unfold received
  rcases he : result.extract c.entry.kind with fault | ⟨v, kind⟩
  · exact hk
  · obtain ⟨kind, rfl⟩ := extract_isKnown hn hk he
    cases v with
    | text s =>
      dsimp only
      split
      · exact ⟨kind, rfl⟩
      · rw [submitted_kind]; exact ⟨kind, rfl⟩
    | _ => exact ⟨kind, rfl⟩

lemma next_isKnown (hk : c.entry.kind.IsKnown) (links : ExplorerLinks) {s : CallStep}
    (hn : s.KindIsText) : (c.next links s).entry.kind.IsKnown := by
  cases s with
  | setPhase phase => rw [next, moved_kind]; exact hk
  | finishWork ending =>
    simp only [next]
    cases ending with
    | returned result =>
      cases c.stage with
      | working => exact received_isKnown hk links hn
      | _ => exact hk
    | _ => cases c.stage <;> exact hk
  | finishConfirmation ending =>
    simp only [next]
    cases ending with
    | returned a =>
      cases c.stage with
      | confirming hash => rw [confirmed_kind]; exact hk
      | _ => exact hk
    | _ => cases c.stage <;> exact hk

/-- The call as it starts. -/
def pending (info : TxMeta) (id timestamp : String) : Call :=
  { entry :=
      { id, kind := .known info.kind, direction := info.direction, asset := info.asset
        amount := info.amount, status := .pending, timestamp
        phase := some (firstPhase info.kind) }
    phase := firstPhase info.kind }

lemma start_eq (t : Tracker) (info : TxMeta) (id timestamp : String) :
    (start t info id timestamp).1 = pending info id timestamp ∧
      (start t info id timestamp).2.history = t.history ∧
      (start t info id timestamp).2.links = t.links :=
  ⟨rfl, by simp [start], by simp [start]⟩

/-- Several steps of a call, with nothing in between. -/
def run (c : Call) (t : Tracker) (ss : List CallStep) : Call × Tracker :=
  ss.foldl (fun r s => r.1.step r.2 s) (c, t)

lemma run_cons (c : Call) (t : Tracker) (s : CallStep) (ss : List CallStep) :
    c.run t (s :: ss) = (c.step t s).1.run (c.step t s).2 ss := rfl

lemma run_of_ended (h : c.isEnded = true) (t : Tracker) (ss : List CallStep) :
    c.run t ss = (c, t) := by
  induction ss with
  | nil => rfl
  | cons s r ih => rw [run_cons, step_of_ended h, ih]

lemma foldl_next_of_ended (links : ExplorerLinks) (h : c.isEnded = true) (ss : List CallStep) :
    ss.foldl (next links) c = c := by
  induction ss with
  | nil => rfl
  | cons s r ih => rw [List.foldl_cons, next_of_ended links h, ih]

/-- Whatever the number of steps, the call is recorded once if it has ended and not otherwise. -/
theorem run_settles {ss : List CallStep} (hq : t.history.Quiet) (hk : c.entry.kind.IsKnown)
    (hn : ∀ s ∈ ss, s.KindIsText) (he : c.isEnded = false) :
    Settles (ss.foldl (next t.links) c) t (c.run t ss) := by
  induction ss generalizing c t with
  | nil => exact Carries.settles ⟨rfl, Tracker.Holds.of_history hq rfl rfl⟩ he
  | cons s r ih =>
    obtain ⟨hc, hh⟩ := step_settles hq hk (hn s (by simp)) he
    rw [run_cons, List.foldl_cons, hc]
    cases he' : (c.next t.links s).isEnded with
    | true =>
      rw [run_of_ended he', foldl_next_of_ended _ he']
      exact ⟨rfl, hh⟩
    | false =>
      rw [he'] at hh
      have hk' := next_isKnown hk t.links (hn s (by simp))
      obtain ⟨hc', hh'⟩ := ih hh.quiet hk' (fun x hx => hn x (by simp [hx])) he'
      rw [hh.links, hh.entries] at hh'
      rw [hh.links] at hc'
      refine ⟨hc', hh.trans ?_⟩
      rwa [hh.record_eq] at hh'

end Call

end StellarWallet
