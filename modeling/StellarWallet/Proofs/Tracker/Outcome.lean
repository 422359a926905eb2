import StellarWallet.Proofs.Tracker.Phase

/-!
The outcome of a tracked call and its record.

Whatever the work does and however the wait for the confirmation ends, a call that is tracked from
its start to its end leaves one record in front of the history, and the record says what happened:
success with hash and link exactly when the hash is returned, else a failure with its reason.
-/

namespace StellarWallet

/-- The work hands over a hash, which is not empty, and the transaction is of a kind: the one that
the work reports, else the one with which it was started. -/
inductive WorkResult.Yields : WorkResult → TxKind → String → TxKind → Prop where
  | plain {s : String} (started : TxKind) (h : s ≠ "") : Yields (.plain s) started s started
  | tracked {s : String} (started : TxKind) (reported : Option TxKind) (h : s ≠ "") :
      Yields (.tracked (.text s) reported) started s (reported.getD started)
  | unnamed {fs : List (String × Value)} {s : String} (started : TxKind) (h : s ≠ "")
      (hash : Fields.lookup "hash" fs = some (.text s))
      (kind : (Fields.lookup "kind" fs).getD .null = .null) : Yields (.fields fs) started s started
  | named {fs : List (String × Value)} {s : String} (started reported : TxKind) (h : s ≠ "")
      (hash : Fields.lookup "hash" fs = some (.text s))
      (kind : Fields.lookup "kind" fs = some (.text (Vocabulary.name reported))) :
      Yields (.fields fs) started s reported

/-- What is wrong with a result that hands over no hash: its kind has no such name, or else there is
just no hash. -/
def WorkResult.defect (r : WorkResult) (started : TxKind) : Fault :=
  match r.extract (.known started) with
  | .error fault => fault
  | .ok _ => Call.noHash

namespace Call

/-- The work has submitted a transaction. -/
def Submits (work : Ending WorkResult) (started : TxKind) (hash : String) (kind : TxKind) : Prop :=
  ∃ r, work = .returned r ∧ r.Yields started hash kind

/-- What tracking a call leaves: the call, the tracker, and the hash and kind of each wait for a
confirmation. -/
structure Tracked where
  call : Call
  tracker : Tracker
  waits : List (String × RecordedKind)

/-- Tracks a call from its start to its end. The work moves to phases and ends; the wait for the
confirmation of a hash ends as `wait` says. -/
def track (t : Tracker) (info : TxMeta) (id timestamp : String) (phases : List TxPhase)
    (work : Ending WorkResult) (wait : String → RecordedKind → Ending Unit) : Tracked :=
  let started := start t info id timestamp
  let worked := started.1.run started.2 (phases.map .setPhase ++ [.finishWork work])
  match worked.1.stage with
  | .confirming hash =>
    let kind := worked.1.entry.kind
    let ended := worked.1.run worked.2 [.finishConfirmation (wait hash kind)]
    ⟨ended.1, ended.2, [(hash, kind)]⟩
  | _ => ⟨worked.1, worked.2, []⟩

/-! ### What the work hands over -/

variable {c : Call} {started : TxKind}

lemma extract_of_yields {r : WorkResult} {hash : String} {kind : TxKind}
    (h : r.Yields started hash kind) :
    hash ≠ "" ∧ r.extract (.known started) = .ok (.text hash, .known kind) := by
  cases h with
  | plain _ h => exact ⟨h, rfl⟩
  | tracked _ reported h => exact ⟨h, by cases reported <;> rfl⟩
  | unnamed _ h hhash hkind =>
    refine ⟨h, ?_⟩
    simp only [WorkResult.extract, hhash, hkind]
    rfl
  | named _ _ h hhash hkind =>
    refine ⟨h, ?_⟩
    simp only [WorkResult.extract, hhash, hkind]
    cases kind <;> rfl

lemma getD_null_eq_text {o : Option Value} {s : String} (h : o.getD .null = .text s) :
    o = some (.text s) := by
  cases o with
  | none => cases h
  | some v => exact congrArg some h

lemma yields_of_extract {r : WorkResult} (hn : r.KindIsText) {hash : String} {kind : RecordedKind}
    (h : r.extract (.known started) = .ok (.text hash, kind)) (hs : hash ≠ "") :
    ∃ k, kind = .known k ∧ r.Yields started hash k := by
  cases r with
  | plain s =>
    cases h
    exact ⟨started, rfl, .plain started hs⟩
  | tracked v reported =>
    cases h
    exact ⟨reported.getD started, by cases reported <;> rfl, .tracked started reported hs⟩
  | other v => cases h
  | fields fs =>
    obtain ⟨hh, hk⟩ := extract_fields h
    have hhash := getD_null_eq_text hh
    rcases reportedKind_cases hn hk with ⟨hnull, rfl⟩ | ⟨k, hname, rfl⟩
    · exact ⟨started, rfl, .unnamed started hs hhash hnull⟩
    · exact ⟨k, rfl, .named started k hs hhash hname⟩

/-- What the work hands over makes of a call: the transaction is submitted if there is one, else
the call fails. -/
lemma received_cases (links : ExplorerLinks) (hk : c.entry.kind = .known started) {r : WorkResult}
    (hn : r.KindIsText) :
    (∃ hash kind, r.Yields started hash kind ∧
      c.received links r = (c.ofKind (.known kind)).submitted links hash kind) ∨
    (∀ hash kind, ¬ r.Yields started hash kind) ∧
      ∃ kind, c.received links r = (c.ofKind kind).refused (r.defect started) := by
  have hnone : (∀ hash kind, r.extract (.known started) = .ok (.text hash, kind) → hash = "") →
      ∀ hash kind, ¬ r.Yields started hash kind := by
    intro h hash kind hy
    obtain ⟨hne, he⟩ := extract_of_yields hy
    exact hne (h hash _ he)
  unfold received WorkResult.defect
  rw [hk]
  rcases he : r.extract (.known started) with fault | ⟨v, kind⟩
  · refine Or.inr ⟨hnone fun hash kind h => ?_, .known started, ?_⟩
    · rw [he] at h; cases h
    · rw [ofKind, ← hk]
  · by_cases hs : ∃ s, v = .text s ∧ s ≠ ""
    · obtain ⟨s, rfl, hne⟩ := hs
      obtain ⟨k, rfl, hy⟩ := yields_of_extract hn he hne
      exact Or.inl ⟨s, k, hy, by simp [hne]⟩
    · refine Or.inr ⟨hnone fun hash kind' h => ?_, kind, ?_⟩
      · rw [he] at h
        obtain ⟨rfl, -⟩ := Prod.mk.inj (Except.ok.inj h)
        by_contra hne
        exact hs ⟨hash, rfl, hne⟩
      · cases v with
        | text s =>
          have hse : s = "" := by
            by_contra hne
            exact hs ⟨s, rfl, hne⟩
          subst hse
          cases kind <;> rfl
        | _ => rfl

/-! ### The record -/

/-- What the record `e` of a tracked call says, and what the call returns. -/
structure IsTruthful (t : Tracker) (info : TxMeta) (id timestamp : String) (phases : List TxPhase)
    (work : Ending WorkResult) (wait : String → RecordedKind → Ending Unit) (r : Tracked)
    (e : HistoryEntry) : Prop where
  /-- The record and the toast of the call have one identifier and one timestamp. -/
  toast : ∃ x : Toast, (start t info id timestamp).2.toasts = atMost t.maxToasts (x :: t.toasts) ∧
    x.entry.id = id ∧ x.entry.timestamp = timestamp
  id : e.id = id
  timestamp : e.timestamp = timestamp
  direction : e.direction = info.direction
  asset : e.asset = info.asset
  amount : e.amount = info.amount
  /-- A hash is returned exactly if the work submitted it and the wait for it returned. -/
  returns_iff : ∀ hash, r.call.stage = .ended (.hash hash) ↔
    ∃ kind, Submits work info.kind hash kind ∧ wait hash (.known kind) = .returned ()
  /-- The confirmation of a submitted hash is waited for once. -/
  waits : ∀ hash kind, Submits work info.kind hash kind → r.waits = [(hash, .known kind)]
  noWait : (∀ hash kind, ¬ Submits work info.kind hash kind) → r.waits = []
  confirmed : ∀ hash kind, Submits work info.kind hash kind →
    wait hash (.known kind) = .returned () →
    e.status = .success ∧ e.phase = some .confirmed ∧ e.reason = .null
  submitted : ∀ hash kind, Submits work info.kind hash kind →
    e.kind = .known kind ∧ e.hash = .text hash ∧ e.link = .text (t.links.link kind hash)
  notSubmitted : (∀ hash kind, ¬ Submits work info.kind hash kind) → e.hash = .null ∧ e.link = .null
  /-- A call that returns no hash fails, and the reason in the record is the one it fails with. -/
  failed : (∀ hash, r.call.stage ≠ .ended (.hash hash)) → e.status = .failed ∧
    ∃ reason, e.reason = .text reason ∧
      (r.call.stage = .ended (.fault ⟨.transaction, reason⟩) ∨
        r.call.stage = .ended .cancelled ∧ reason = cancelReason)
  raised : ∀ fault, (work = .raised fault ∨
    ∃ hash kind, Submits work info.kind hash kind ∧ wait hash (.known kind) = .raised fault) →
    e.reason = .text (Reason.ofFault fault)
  unusable : ∀ result, work = .returned result → (∀ hash kind, ¬ Submits work info.kind hash kind) →
    e.reason = .text (Reason.ofFault (result.defect info.kind))
  cancelled_iff : r.call.stage = .ended .cancelled ↔ (work = .cancelled ∨
    ∃ hash kind, Submits work info.kind hash kind ∧ wait hash (.known kind) = .cancelled)
  /-- The phase of a failure is the last one reached: the first one, those that the work moved to,
  and that of being submitted if there is a hash. -/
  phase : (∀ hash, r.call.stage ≠ .ended (.hash hash)) → ∃ p, e.phase = some p ∧
    ((∃ hash kind, Submits work info.kind hash kind) →
      TxPhase.IsLast (firstPhase info.kind :: (phases ++ [.submitted])) p) ∧
    ((∀ hash kind, ¬ Submits work info.kind hash kind) →
      TxPhase.IsLast (firstPhase info.kind :: phases) p)

lemma Submits.unique {work : Ending WorkResult} {hash hash' : String} {kind kind' : TxKind}
    (h : Submits work started hash kind) (h' : Submits work started hash' kind') :
    hash = hash' ∧ kind = kind' := by
  obtain ⟨r, rfl, hy⟩ := h
  obtain ⟨r', hr, hy'⟩ := h'
  cases hr
  have he := (extract_of_yields hy).2.symm.trans (extract_of_yields hy').2
  simpa using he

section

variable {work : Ending WorkResult} {hash : String} {kind : TxKind} {p : String → TxKind → Prop}

/-- Only one hash is submitted, of one kind. -/
lemma Submits.forall_iff (h : Submits work started hash kind) :
    (∀ hash' kind', Submits work started hash' kind' → p hash' kind') ↔ p hash kind := by
  constructor
  · exact fun hp => hp hash kind h
  · intro hp hash' kind' h'
    obtain ⟨rfl, rfl⟩ := h.unique h'
    exact hp

lemma Submits.exists_iff (h : Submits work started hash kind) :
    (∃ hash' kind', Submits work started hash' kind' ∧ p hash' kind') ↔ p hash kind := by
  constructor
  · rintro ⟨hash', kind', h', hp⟩
    obtain ⟨rfl, rfl⟩ := h.unique h'
    exact hp
  · exact fun hp => ⟨hash, kind, h, hp⟩

lemma Submits.ne_raised (h : Submits work started hash kind) (fault : Fault) :
    work ≠ .raised fault := by
  obtain ⟨r, rfl, -⟩ := h
  simp

lemma Submits.ne_cancelled (h : Submits work started hash kind) : work ≠ .cancelled := by
  obtain ⟨r, rfl, -⟩ := h
  simp

end

variable {t : Tracker} {info : TxMeta} {id timestamp : String} {phases : List TxPhase}
  {work : Ending WorkResult} {wait : String → RecordedKind → Ending Unit}

lemma start_toasts (t : Tracker) (info : TxMeta) (id timestamp : String) :
    ∃ x : Toast, (start t info id timestamp).2.toasts = atMost t.maxToasts (x :: t.toasts) ∧
      x.entry.id = id ∧ x.entry.timestamp = timestamp :=
  ⟨⟨(info.title.filter (· ≠ "")).getD defaultTitle, (pending info id timestamp).entry⟩,
    by simp [start, Tracker.present, pending], rfl, rfl⟩

/-- The phase that work has reached. -/
def reached (info : TxMeta) (phases : List TxPhase) : TxPhase :=
  phases.foldl TxPhase.later (firstPhase info.kind)

/-- The call when the work is about to end. -/
def atWorkEnd (info : TxMeta) (id timestamp : String) (phases : List TxPhase) : Call :=
  (pending info id timestamp).atPhase (reached info phases)

/-- The call when the work has ended. -/
def afterWork (links : ExplorerLinks) (info : TxMeta) (id timestamp : String)
    (phases : List TxPhase) (work : Ending WorkResult) : Call :=
  (atWorkEnd info id timestamp phases).next links (.finishWork work)

lemma foldl_next_work (links : ExplorerLinks) (phases : List TxPhase) (work : Ending WorkResult) :
    (phases.map CallStep.setPhase ++ [CallStep.finishWork work]).foldl (next links)
        (pending info id timestamp)
      = afterWork links info id timestamp phases work := by
  have hm : (phases.map CallStep.setPhase).foldl (next links) (pending info id timestamp)
      = atWorkEnd info id timestamp phases := by
    rw [List.foldl_map]
    exact foldl_moved (c := pending info id timestamp) rfl rfl phases
  rw [List.foldl_append, hm]
  rfl

/-- The part of a tracked call up to the end of the work. -/
lemma run_work (info : TxMeta) (id timestamp : String) (phases : List TxPhase)
    (hq : t.history.Quiet) (hn : work.KindIsText) :
    let started := start t info id timestamp
    let worked := started.1.run started.2 (phases.map .setPhase ++ [.finishWork work])
    let c := afterWork t.links info id timestamp phases work
    worked.1 = c ∧ c.entry.kind.IsKnown ∧
      t.Holds worked.2 (if c.isEnded then t.history.record c.entry else t.history.entries) := by
  intro started worked c
  obtain ⟨hc, hh, hl⟩ := start_eq t info id timestamp
  have hs : ∀ s ∈ phases.map CallStep.setPhase ++ [CallStep.finishWork work], s.KindIsText := by
    intro s hs
    rcases List.mem_append.1 hs with h | h
    · obtain ⟨p, -, rfl⟩ := List.mem_map.1 h
      trivial
    · rw [List.mem_singleton.1 h]
      exact hn
  have hstart : t.Holds started.2 t.history.entries := Tracker.Holds.of_history hq hh hl
  have hk : started.1.entry.kind.IsKnown := ⟨info.kind, rfl⟩
  obtain ⟨hr, hh'⟩ := run_settles hstart.quiet hk hs (by rw [show started.1 = _ from hc]; rfl)
  rw [show started.1 = _ from hc, hstart.links, foldl_next_work] at hr hh'
  rw [hstart.record_eq, hstart.entries] at hh'
  refine ⟨hr, ?_, hstart.trans hh'⟩
  exact next_isKnown (c := atWorkEnd info id timestamp phases) ⟨info.kind, rfl⟩ t.links
    (s := .finishWork work) hn

/-- Work that ends without a hash to confirm ends the call. -/
lemma track_of_ended (wait : String → RecordedKind → Ending Unit) (hq : t.history.Quiet)
    (hn : work.KindIsText)
    (he : (afterWork t.links info id timestamp phases work).isEnded = true) :
    let c := afterWork t.links info id timestamp phases work
    ∃ t', track t info id timestamp phases work wait = ⟨c, t', []⟩ ∧
      t'.history.entries = t.history.record c.entry := by
  intro c
  obtain ⟨hc, -, hh⟩ := run_work info id timestamp phases hq hn
  rw [if_pos he] at hh
  refine ⟨_, ?_, hh.entries⟩
  obtain ⟨outcome, hs⟩ := exists_outcome he
  unfold track
  simp only [hc, hs]
  rfl

/-- Work that ends with a hash to confirm leaves the end to the wait for it. -/
lemma track_of_confirming (wait : String → RecordedKind → Ending Unit) (hq : t.history.Quiet)
    (hn : work.KindIsText) {hash : String} {kind : TxKind}
    (hs : (afterWork t.links info id timestamp phases work).stage = .confirming hash)
    (hk : (afterWork t.links info id timestamp phases work).entry.kind = .known kind) :
    let c := (afterWork t.links info id timestamp phases work).next t.links
      (.finishConfirmation (wait hash (.known kind)))
    c.isEnded = true → ∃ t', track t info id timestamp phases work wait =
      ⟨c, t', [(hash, .known kind)]⟩ ∧ t'.history.entries = t.history.record c.entry := by
  intro c he
  obtain ⟨hc, hk', hh⟩ := run_work info id timestamp phases hq hn
  have he' : (afterWork t.links info id timestamp phases work).isEnded = false := by
    simp [isEnded, hs]
  rw [he'] at hh
  have hs' : ∀ s ∈ [CallStep.finishConfirmation (wait hash (.known kind))], s.KindIsText := by
    simp [CallStep.KindIsText]
  obtain ⟨hr, hh'⟩ := run_settles hh.quiet hk' hs' he'
  rw [hh.links] at hr hh'
  rw [List.foldl_cons, List.foldl_nil, if_pos he, hh.record_eq] at hh'
  refine ⟨_, ?_, hh'.entries⟩
  unfold track
  simp only [hc, hs, hk]
  rw [hr]
  rfl

/-! ### The three ways to end -/

/-- How a part of a call that ends so makes the call fail. -/
inductive FailsAs {α : Type} : Ending α → String → CallOutcome → Prop where
  | raised (fault : Fault) : FailsAs (.raised fault) (Reason.ofFault fault)
      (.fault ⟨.transaction, Reason.ofFault fault⟩)
  | unusable (a : α) (fault : Fault) : FailsAs (.returned a) (Reason.ofFault fault)
      (.fault ⟨.transaction, Reason.ofFault fault⟩)
  | cancelled : FailsAs .cancelled cancelReason .cancelled

lemma FailsAs.ne_hash {α : Type} {ending : Ending α} {reason : String} {outcome : CallOutcome}
    (h : FailsAs ending reason outcome) (hash : String) : outcome ≠ .hash hash := by
  cases h <;> simp

lemma FailsAs.reason_or {α : Type} {ending : Ending α} {reason : String} {outcome : CallOutcome}
    (h : FailsAs ending reason outcome) : outcome = .fault ⟨.transaction, reason⟩ ∨
      outcome = .cancelled ∧ reason = cancelReason := by
  cases h <;> simp

lemma FailsAs.cancelled_iff {α : Type} {ending : Ending α} {reason : String}
    {outcome : CallOutcome} (h : FailsAs ending reason outcome) :
    outcome = .cancelled ↔ ending = .cancelled := by
  cases h <;> simp

lemma FailsAs.reason_of_raised {α : Type} {ending : Ending α} {reason : String}
    {outcome : CallOutcome} {fault : Fault} (h : FailsAs ending reason outcome)
    (hf : ending = .raised fault) : reason = Reason.ofFault fault := by
  cases h <;> simp_all

lemma isTruthful_of_noHash (hno : ∀ hash kind, ¬ Submits work info.kind hash kind)
    {kind : RecordedKind} {reason : String} {outcome : CallOutcome}
    (hf : FailsAs work reason outcome)
    (hu : ∀ result, work = .returned result → reason = Reason.ofFault (result.defect info.kind))
    (t' : Tracker) :
    let c := ((atWorkEnd info id timestamp phases).ofKind kind).failed reason outcome
    IsTruthful t info id timestamp phases work wait ⟨c, t', []⟩ c.entry where
  toast := start_toasts t info id timestamp
  id := rfl
  timestamp := rfl
  direction := rfl
  asset := rfl
  amount := rfl
  returns_iff := by
    intro hash
    simp only [failed, CallStage.ended.injEq, hf.ne_hash hash, false_iff]
    rintro ⟨kind, hs, -⟩
    exact hno hash kind hs
  waits := fun hash kind hs => absurd hs (hno hash kind)
  noWait := fun _ => rfl
  confirmed := fun hash kind hs => absurd hs (hno hash kind)
  submitted := fun hash kind hs => absurd hs (hno hash kind)
  notSubmitted := fun _ => ⟨rfl, rfl⟩
  failed := by
    refine fun _ => ⟨rfl, reason, rfl, ?_⟩
    simpa [failed] using hf.reason_or
  raised := by
    rintro fault (hw | ⟨hash, kind, hs, -⟩)
    · rw [← hf.reason_of_raised hw]; rfl
    · exact absurd hs (hno hash kind)
  unusable := by
    intro result hw _
    rw [← hu result hw]
    rfl
  cancelled_iff := by
    simp only [failed, CallStage.ended.injEq, hf.cancelled_iff]
    refine ⟨Or.inl, ?_⟩
    rintro (hw | ⟨hash, kind, hs, -⟩)
    · exact hw
    · exact absurd hs (hno hash kind)
  phase := by
    refine fun _ => ⟨reached info phases, rfl, ?_, fun _ => TxPhase.isLast_foldl_later _ _⟩
    rintro ⟨hash, kind, hs⟩
    exact absurd hs (hno hash kind)

/-- The call while it waits for a confirmation. -/
def atWait (links : ExplorerLinks) (info : TxMeta) (id timestamp : String)
    (phases : List TxPhase) (hash : String) (kind : TxKind) : Call :=
  ((((pending info id timestamp).ofKind (.known kind)).atPhase
    (reached info (phases ++ [.submitted]))).hashed hash).linked hash (links.link kind hash)

lemma submitted_atWorkEnd (links : ExplorerLinks) (hash : String) (kind : TxKind) :
    ((atWorkEnd info id timestamp phases).ofKind (.known kind)).submitted links hash kind
      = atWait links info id timestamp phases hash kind := by
  have hl := leaveSigning_eq
    (c := ((atWorkEnd info id timestamp phases).ofKind (.known kind)).hashed hash) rfl rfl
  have hr : reached info (phases ++ [.submitted])
      = (reached info phases).later .submitted := by
    rw [reached, List.foldl_append]
    rfl
  rw [submitted, hl, atWait, hr]
  rfl

lemma isTruthful_of_failedWait {hash : String} {kind : TxKind}
    (hs : Submits work info.kind hash kind) (hw : wait hash (.known kind) ≠ .returned ())
    {reason : String} {outcome : CallOutcome}
    (hf : FailsAs (wait hash (.known kind)) reason outcome) (t' : Tracker) :
    let c := (atWait t.links info id timestamp phases hash kind).failed reason outcome
    IsTruthful t info id timestamp phases work wait ⟨c, t', [(hash, .known kind)]⟩ c.entry where
  toast := start_toasts t info id timestamp
  id := rfl
  timestamp := rfl
  direction := rfl
  asset := rfl
  amount := rfl
  returns_iff := by
    intro hash'
    simp only [failed, CallStage.ended.injEq, hf.ne_hash hash', false_iff]
    rintro ⟨kind', hs', hw'⟩
    obtain ⟨rfl, rfl⟩ := hs.unique hs'
    exact hw hw'
  waits := hs.forall_iff.2 rfl
  noWait := fun hno => absurd hs (hno hash kind)
  confirmed := hs.forall_iff.2 fun hw' => absurd hw' hw
  submitted := hs.forall_iff.2 ⟨rfl, rfl, rfl⟩
  notSubmitted := fun hno => absurd hs (hno hash kind)
  failed := by
    refine fun _ => ⟨rfl, reason, rfl, ?_⟩
    simpa [failed] using hf.reason_or
  raised := by
    intro fault hr
    rw [or_iff_right (hs.ne_raised fault), hs.exists_iff] at hr
    rw [← hf.reason_of_raised hr]
    rfl
  unusable := fun _ _ hno => absurd hs (hno hash kind)
  cancelled_iff := by
    rw [or_iff_right hs.ne_cancelled, hs.exists_iff, ← hf.cancelled_iff]
    simp [failed]
  phase := by
    refine fun _ => ⟨reached info (phases ++ [.submitted]), rfl, ?_, ?_⟩
    · exact fun _ => TxPhase.isLast_foldl_later _ _
    · exact fun hno => absurd hs (hno hash kind)

lemma confirmed_atWait (links : ExplorerLinks) (hash : String) (kind : TxKind) :
    (atWait links info id timestamp phases hash kind).moved .confirmed
      = (atWait links info id timestamp phases hash kind).atPhase .confirmed := by
  have hp : ∀ p : TxPhase, p.later .confirmed = .confirmed := fun p => by cases p <;> rfl
  rw [moved_eq (c := atWait links info id timestamp phases hash kind) rfl rfl, hp]

lemma isTruthful_of_confirmed {hash : String} {kind : TxKind}
    (hs : Submits work info.kind hash kind) (hw : wait hash (.known kind) = .returned ())
    (t' : Tracker) :
    let c := (atWait t.links info id timestamp phases hash kind).confirmed hash
    IsTruthful t info id timestamp phases work wait ⟨c, t', [(hash, .known kind)]⟩ c.entry := by
  intro c
  have hc : c.entry = { (atWait t.links info id timestamp phases hash kind).entry with
      phase := some .confirmed, status := .success } := by
    simp only [c, Call.confirmed, confirmed_atWait]
    rfl
  have hstage : c.stage = .ended (.hash hash) := rfl
  rw [hc]
  exact {
    toast := start_toasts t info id timestamp
    id := rfl
    timestamp := rfl
    direction := rfl
    asset := rfl
    amount := rfl
    returns_iff := by
      intro hash'
      simp only [hstage, CallStage.ended.injEq, CallOutcome.hash.injEq]
      constructor
      · rintro rfl
        exact ⟨kind, hs, hw⟩
      · rintro ⟨kind', hs', -⟩
        exact (hs.unique hs').1
    waits := hs.forall_iff.2 rfl
    noWait := fun hno => absurd hs (hno hash kind)
    confirmed := fun _ _ _ _ => ⟨rfl, rfl, rfl⟩
    submitted := hs.forall_iff.2 ⟨rfl, rfl, rfl⟩
    notSubmitted := fun hno => absurd hs (hno hash kind)
    failed := fun hne => absurd hstage (hne hash)
    raised := by
      intro fault hr
      rw [or_iff_right (hs.ne_raised fault), hs.exists_iff, hw] at hr
      cases hr
    unusable := fun _ _ hno => absurd hs (hno hash kind)
    cancelled_iff := by
      rw [or_iff_right hs.ne_cancelled, hs.exists_iff, hw, hstage]
      simp
    phase := fun hne => absurd hstage (hne hash) }

/-! ### All calls -/

/-- Tracking a call leaves one record in front of the history, and it is truthful. -/
def LeavesTruth (t : Tracker) (info : TxMeta) (id timestamp : String) (phases : List TxPhase)
    (work : Ending WorkResult) (wait : String → RecordedKind → Ending Unit) : Prop :=
  ∃ e, (track t info id timestamp phases work wait).tracker.history.entries
      = atMost t.history.maxItems (e :: t.history.entries) ∧
    IsTruthful t info id timestamp phases work wait (track t info id timestamp phases work wait) e

/-- Work that hands over no hash. -/
lemma leavesTruth_of_noHash (hq : t.history.Quiet) (hn : work.KindIsText)
    (hno : ∀ hash kind, ¬ Submits work info.kind hash kind)
    {kind : RecordedKind} {reason : String} {outcome : CallOutcome}
    (hc : afterWork t.links info id timestamp phases work
      = ((atWorkEnd info id timestamp phases).ofKind kind).failed reason outcome)
    (hf : FailsAs work reason outcome)
    (hu : ∀ result, work = .returned result → reason = Reason.ofFault (result.defect info.kind)) :
    LeavesTruth t info id timestamp phases work wait := by
  have hend : (afterWork t.links info id timestamp phases work).isEnded = true := by
    rw [hc]
    rfl
  obtain ⟨t', hr, he⟩ := track_of_ended wait hq hn hend
  rw [hc] at hr he
  rw [LeavesTruth, hr]
  exact ⟨_, he, isTruthful_of_noHash hno hf hu t'⟩

/-- Work that hands over a hash leaves the record to the wait for its confirmation. -/
lemma leavesTruth_of_next (hq : t.history.Quiet) (hn : work.KindIsText) {hash : String}
    {kind : TxKind} (hc : afterWork t.links info id timestamp phases work
      = atWait t.links info id timestamp phases hash kind)
    {c : Call} (hnext : (atWait t.links info id timestamp phases hash kind).next t.links
      (.finishConfirmation (wait hash (.known kind))) = c) (hend : c.isEnded = true)
    (htrue : ∀ t', IsTruthful t info id timestamp phases work wait
      ⟨c, t', [(hash, .known kind)]⟩ c.entry) :
    LeavesTruth t info id timestamp phases work wait := by
  have hstage : (afterWork t.links info id timestamp phases work).stage = .confirming hash := by
    rw [hc]
    rfl
  have hkind : (afterWork t.links info id timestamp phases work).entry.kind = .known kind := by
    rw [hc]
    rfl
  obtain ⟨t', hr, he⟩ := track_of_confirming wait hq hn hstage hkind (by rw [hc, hnext, hend])
  rw [hc, hnext] at hr he
  rw [LeavesTruth, hr]
  exact ⟨c.entry, he, htrue t'⟩

/-- Work that hands over a hash. -/
lemma leavesTruth_of_submits (hq : t.history.Quiet) (hn : work.KindIsText) {hash : String}
    {kind : TxKind} (hs : Submits work info.kind hash kind)
    (hc : afterWork t.links info id timestamp phases work
      = atWait t.links info id timestamp phases hash kind) :
    LeavesTruth t info id timestamp phases work wait := by
  cases hw : wait hash (.known kind) with
  | returned a =>
    exact leavesTruth_of_next hq hn hc (by rw [hw]; rfl) rfl (isTruthful_of_confirmed hs hw)
  | raised fault =>
    have hne : wait hash (.known kind) ≠ .returned () := by simp [hw]
    have hf : FailsAs (wait hash (.known kind)) (Reason.ofFault fault)
        (.fault ⟨.transaction, Reason.ofFault fault⟩) := by
      rw [hw]
      exact .raised fault
    exact leavesTruth_of_next hq hn hc (by rw [hw]; rfl) rfl (isTruthful_of_failedWait hs hne hf)
  | cancelled =>
    have hne : wait hash (.known kind) ≠ .returned () := by simp [hw]
    have hf : FailsAs (wait hash (.known kind)) cancelReason .cancelled := by
      rw [hw]
      exact .cancelled
    exact leavesTruth_of_next hq hn hc (by rw [hw]; rfl) rfl (isTruthful_of_failedWait hs hne hf)

end Call

end StellarWallet
