import StellarWallet.Proofs.History.Saving
import StellarWallet.Proofs.Tracker.Outcome

/-!
Tracked calls and their saved history.

A call pushes its entry once, when it ends. As long as the kinds that work reports are usable, a
history that can be saved therefore equals its slot after every call and after every draft.
-/

namespace StellarWallet

namespace WorkResult

variable {fs : List (String × Value)} {v : Value}

/-- The kind among the fields is a text, or there is nothing in it. -/
def HasUsableKind (fs : List (String × Value)) : Prop :=
  ∀ v, Fields.lookup "kind" fs = some v → v.isFilled = true → ∃ s, v = .text s

lemma reportedKind_of_not_text (h : ∀ s, v ≠ .text s) (kind : RecordedKind) :
    reportedKind v kind = .ok (if v.isFilled then .foreign v else kind) := by
  cases v with
  | text s => exact absurd rfl (h s)
  | _ => rfl

/-- Fields with a usable kind hand over what a result without any odd kind does. -/
lemma HasUsableKind.exists_eq (h : HasUsableKind fs) :
    ∃ r : WorkResult, r.KindIsText ∧ ∀ kind, (fields fs).extract kind = r.extract kind := by
  by_cases htext : (fields fs).KindIsText
  · exact ⟨fields fs, htext, fun kind => rfl⟩
  -- A kind that is no text is empty here, and leaves the kind as it was.
  · have hodd : ∃ v, Fields.lookup "kind" fs = some v ∧ ∀ s, v ≠ .text s := by
      by_contra hno
      refine htext fun v hv => Or.inr ?_
      by_contra hs
      exact hno ⟨v, hv, fun s hvs => hs ⟨s, hvs⟩⟩
    obtain ⟨v, hv, hs⟩ := hodd
    have hempty : ¬ v.isFilled = true := fun hf => by
      obtain ⟨s, hvs⟩ := h v hv hf
      exact hs s hvs
    refine ⟨.tracked ((Fields.lookup "hash" fs).getD .null) none, trivial, fun kind => ?_⟩
    simp only [extract, hv, Option.getD_some, reportedKind_of_not_text hs, if_neg hempty]
    rfl

end WorkResult

/-- Null or a text. -/
def Value.IsRemark (v : Value) : Prop := v = .null ∨ ∃ s, v = .text s

lemma Value.IsRemark.isPlain {v : Value} (h : v.IsRemark) {p : Number → Prop} {room : Nat} :
    v.IsPlain p room := by
  obtain rfl | ⟨s, rfl⟩ := h
  · exact isPlain_null
  · exact isPlain_text s

lemma Draft.isRemark_optionalText (s : Option String) : (optionalText s).IsRemark := by
  cases s with
  | none => exact Or.inl rfl
  | some s => exact Or.inr ⟨s, rfl⟩

namespace Call

variable {c : Call} {t : Tracker}

/-! ### What becomes of the history -/

lemma endFailed_history (c : Call) (t : Tracker) (reason : String) (outcome : CallOutcome) :
    (c.endFailed t reason outcome).2.history
      = (t.history.push (c.failed reason outcome).entry).2 := by
  obtain ⟨-, hhistory⟩ := (t.refresh (c.failed reason outcome).entry).commit_eq
    (c.failed reason outcome).entry
  rwa [Tracker.refresh_history] at hhistory

/-- A call that cannot be recorded ends with the fault of that. -/
lemma endFailed_stage_of_error {reason : String} {outcome : CallOutcome} {fault : Fault}
    (h : (t.history.push (c.failed reason outcome).entry).1 = .error fault) :
    (c.endFailed t reason outcome).1.stage = .ended (.fault fault) := by
  obtain ⟨houtcome, -⟩ := (t.refresh (c.failed reason outcome).entry).commit_eq
    (c.failed reason outcome).entry
  rw [Tracker.refresh_history, h] at houtcome
  unfold failed at houtcome
  simp only [endFailed, houtcome]

lemma submit_history {kind : TxKind} (hk : c.entry.kind = .known kind) (hash : String) :
    (c.submit t hash).2.history = t.history := by
  obtain ⟨hc, hh, -⟩ := leave_eq (c.hashed hash) t
  have hk' : (c.hashed hash).leaveSigning.entry.kind = .known kind := by
    rw [leaveSigning_kind]; exact hk
  rw [submit_eq]
  simp only [hc, hk', ExplorerLinks.recordedLink, Tracker.refresh_history, hh]

lemma succeed_history (hq : t.history.Quiet) (hk : c.entry.kind.IsKnown) (hash : String) :
    (c.succeed t hash).2.history = (t.history.push (c.confirmed hash).entry).2 := by
  obtain ⟨hc, hh, -⟩ := setPhase_eq c t .confirmed
  have hk' : (c.confirmed hash).entry.kind.IsKnown := by rwa [confirmed_kind]
  -- The push of a confirmed call goes through, so no failure is recorded after it.
  obtain ⟨storage, hpush, -⟩ := hq.push hk'
  obtain ⟨houtcome, hhistory⟩ :=
    ((c.setPhase t .confirmed).2.refresh (c.confirmed hash).entry).commit_eq
      (c.confirmed hash).entry
  rw [Tracker.refresh_history, hh] at houtcome hhistory
  rw [hpush] at houtcome
  have hs : (c.succeed t hash).2 = (((c.setPhase t .confirmed).2.refresh
      (c.confirmed hash).entry).commit (c.confirmed hash).entry).2 := by
    simp only [confirmed] at houtcome ⊢
    simp only [succeed, hc]
    split
    · next hm => rw [hm]
    · next hm => rw [hm] at houtcome; cases houtcome
  rw [hs, hhistory]

/-- What the history is when a call has become `c'` and the history was `h`. -/
def historyAfter (h : History) (c' : Call) : History :=
  if c'.isEnded then (h.push c'.entry).2 else h

lemma receive_history {result : WorkResult} (hk : c.entry.kind.IsKnown) (hn : result.KindIsText) :
    (c.receive t result).2.history = historyAfter t.history (c.received t.links result) := by
  unfold received receive
  rcases he : result.extract c.entry.kind with fault | ⟨v, kind⟩
  · exact endFailed_history c t _ _
  · obtain ⟨kind, rfl⟩ := extract_isKnown hn hk he
    cases v with
    | text s =>
      dsimp only
      split
      · exact endFailed_history _ t _ _
      · exact submit_history rfl s
    | _ => exact endFailed_history _ t _ _

lemma step_history (hq : t.history.Quiet) (hk : c.entry.kind.IsKnown) {s : CallStep}
    (hn : s.KindIsText) (he : c.isEnded = false) :
    (c.step t s).2.history = historyAfter t.history (c.next t.links s) := by
  have hstay : t.history = historyAfter t.history c := by rw [historyAfter, he]; rfl
  cases s with
  | setPhase phase =>
    rw [next, historyAfter, moved_isEnded, he]
    exact (setPhase_eq c t phase).2.1
  | finishWork ending =>
    simp only [next, step, finishWork]
    cases c.stage with
    | working =>
      cases ending with
      | returned result => exact receive_history hk hn
      | raised fault => exact endFailed_history c t _ _
      | cancelled => exact endFailed_history c t _ _
    | confirming hash => exact hstay
    | ended outcome => exact hstay
  | finishConfirmation ending =>
    simp only [next, step, finishConfirmation]
    cases c.stage with
    | confirming hash =>
      cases ending with
      | returned a => exact succeed_history hq hk hash
      | raised fault => exact endFailed_history c t _ _
      | cancelled => exact endFailed_history c t _ _
    | working => exact hstay
    | ended outcome => exact hstay

/-! ### What the entry of a call is about -/

/-- The entry of a call has an identifier and the amount of a transaction, and what is remarked on
it are texts. -/
structure Concerns (c : Call) (info : TxMeta) (id : String) : Prop where
  id : c.entry.id = id
  amount : c.entry.amount = info.amount
  hash : c.entry.hash.IsRemark
  link : c.entry.link.IsRemark
  reason : c.entry.reason.IsRemark

section

variable {info : TxMeta} {id : String} (h : c.Concerns info id)
include h

lemma Concerns.readsBack (ha : Json.IsReadable info.amount) (reader : Json.Reader) :
    History.ReadsBack reader c.entry :=
  ⟨h.amount ▸ ha, h.hash.isPlain, h.link.isPlain, h.reason.isPlain⟩

lemma Concerns.moved (phase : TxPhase) : (c.moved phase).Concerns info id := by
  unfold Call.moved
  split
  · exact h
  · exact ⟨h.id, h.amount, h.hash, h.link, h.reason⟩

lemma Concerns.failed (reason : String) (outcome : CallOutcome) :
    (c.failed reason outcome).Concerns info id :=
  ⟨h.id, h.amount, h.hash, h.link, Or.inr ⟨reason, rfl⟩⟩

lemma Concerns.ofKind (kind : RecordedKind) : (c.ofKind kind).Concerns info id :=
  ⟨h.id, h.amount, h.hash, h.link, h.reason⟩

lemma Concerns.hashed (hash : String) : (c.hashed hash).leaveSigning.Concerns info id := by
  have hhashed : (c.hashed hash).Concerns info id :=
    ⟨h.id, h.amount, Or.inr ⟨hash, rfl⟩, h.link, h.reason⟩
  unfold leaveSigning
  split
  · exact hhashed.moved .submitted
  · exact hhashed

lemma Concerns.submitted (links : ExplorerLinks) (hash : String) (kind : TxKind) :
    (c.submitted links hash kind).Concerns info id := by
  have hleft := h.hashed hash
  exact ⟨hleft.id, hleft.amount, hleft.hash, Or.inr ⟨links.link kind hash, rfl⟩, hleft.reason⟩

lemma Concerns.received (links : ExplorerLinks) (result : WorkResult) :
    (c.received links result).Concerns info id := by
  unfold Call.received
  split
  · exact h.failed _ _
  · split
    · exact (h.ofKind _).failed _ _
    · exact (h.ofKind _).submitted links _ _
  · exact (h.ofKind _).failed _ _

lemma Concerns.confirmed (hash : String) : (c.confirmed hash).Concerns info id := by
  have hmoved := h.moved .confirmed
  exact ⟨hmoved.id, hmoved.amount, hmoved.hash, hmoved.link, hmoved.reason⟩

lemma Concerns.next (links : ExplorerLinks) (s : CallStep) : (c.next links s).Concerns info id := by
  cases s with
  | setPhase phase => exact h.moved phase
  | finishWork ending =>
    simp only [Call.next]
    cases c.stage <;> cases ending
    case working.returned result => exact h.received links result
    case working.raised fault => exact h.failed _ _
    case working.cancelled => exact h.failed _ _
    all_goals exact h
  | finishConfirmation ending =>
    simp only [Call.next]
    cases c.stage <;> cases ending
    case confirming.returned => exact h.confirmed _
    case confirming.raised fault => exact h.failed _ _
    case confirming.cancelled => exact h.failed _ _
    all_goals exact h

end

/-! ### How a tracked call ends -/

variable {info : TxMeta} {id timestamp : String} {phases : List TxPhase}
  {work : Ending WorkResult} {wait : String → RecordedKind → Ending Unit}

/-- How a call may end if nobody cancels it. -/
def EndsOrdinarily (stage : CallStage) : Prop :=
  (∃ hash, stage = .ended (.hash hash)) ∨ ∃ reason, stage = .ended (.fault ⟨.transaction, reason⟩)

/-- Work that ends leaves its call waiting for a confirmation, or ended. -/
lemma afterWork_stage (links : ExplorerLinks) (info : TxMeta) (id timestamp : String)
    (phases : List TxPhase) (hn : work.KindIsText) :
    (∃ hash, (afterWork links info id timestamp phases work).stage = .confirming hash) ∨
      (afterWork links info id timestamp phases work).isEnded = true ∧
        (work ≠ .cancelled →
          EndsOrdinarily (afterWork links info id timestamp phases work).stage) := by
  cases work with
  | raised fault => exact Or.inr ⟨rfl, fun _ => Or.inr ⟨_, rfl⟩⟩
  | cancelled => exact Or.inr ⟨rfl, fun h => absurd rfl h⟩
  | returned result =>
    have hreceived : afterWork links info id timestamp phases (.returned result)
        = (atWorkEnd info id timestamp phases).received links result := rfl
    rcases received_cases (c := atWorkEnd info id timestamp phases) links rfl hn with
      ⟨hash, kind, -, hc⟩ | ⟨-, kind, hc⟩
    · exact Or.inl ⟨hash, by rw [hreceived, hc]; rfl⟩
    · rw [hreceived, hc]
      exact Or.inr ⟨rfl, fun _ => Or.inr ⟨_, rfl⟩⟩

/-- A wait that ends ends its call. -/
lemma confirmation_stage (links : ExplorerLinks) {hash : String}
    (hs : c.stage = .confirming hash) (ending : Ending Unit) :
    (c.next links (.finishConfirmation ending)).isEnded = true ∧
      (ending ≠ .cancelled → EndsOrdinarily (c.next links (.finishConfirmation ending)).stage) := by
  simp only [next, hs]
  cases ending with
  | returned a => exact ⟨rfl, fun _ => Or.inl ⟨hash, rfl⟩⟩
  | raised fault => exact ⟨rfl, fun _ => Or.inr ⟨_, rfl⟩⟩
  | cancelled => exact ⟨rfl, fun h => absurd rfl h⟩

/-- What is true of a tracked call at its end. -/
structure Settled (t : Tracker) (info : TxMeta) (id : String) (r : Tracked) : Prop where
  known : r.call.entry.kind.IsKnown
  concerns : r.call.Concerns info id
  history : r.tracker.history = (t.history.push r.call.entry).2

/-- A tracked call and its tracker when the work has ended. -/
def worked (t : Tracker) (info : TxMeta) (id timestamp : String) (phases : List TxPhase)
    (work : Ending WorkResult) : Call × Tracker :=
  (start t info id timestamp).1.run (start t info id timestamp).2
    (phases.map .setPhase ++ [.finishWork work])

lemma track_of_stage_ended {outcome : CallOutcome}
    (h : (worked t info id timestamp phases work).1.stage = .ended outcome)
    (wait : String → RecordedKind → Ending Unit) :
    track t info id timestamp phases work wait
      = ⟨(worked t info id timestamp phases work).1,
          (worked t info id timestamp phases work).2, []⟩ := by
  unfold worked at h ⊢
  unfold track
  simp only [h]

lemma track_of_stage_confirming {hash : String}
    (h : (worked t info id timestamp phases work).1.stage = .confirming hash)
    (wait : String → RecordedKind → Ending Unit) :
    let c := (worked t info id timestamp phases work).1
    let ended := c.step (worked t info id timestamp phases work).2
      (.finishConfirmation (wait hash c.entry.kind))
    track t info id timestamp phases work wait = ⟨ended.1, ended.2, [(hash, c.entry.kind)]⟩ := by
  unfold worked at h ⊢
  unfold track
  simp only [h]
  rfl

/-- Moving to phases leaves the history alone. -/
lemma run_phases (c : Call) (t : Tracker) (phases : List TxPhase) :
    (c.run t (phases.map .setPhase)).1 = phases.foldl moved c ∧
      (c.run t (phases.map .setPhase)).2.history = t.history ∧
      (c.run t (phases.map .setPhase)).2.links = t.links := by
  induction phases generalizing c t with
  | nil => exact ⟨rfl, rfl, rfl⟩
  | cons p r ih =>
    obtain ⟨hc, hh, hl⟩ := setPhase_eq c t p
    obtain ⟨hrun, hhistory, hlinks⟩ := ih (c.setPhase t p).1 (c.setPhase t p).2
    rw [List.map_cons, run_cons, List.foldl_cons, ← hc]
    exact ⟨hrun, hhistory.trans hh, hlinks.trans hl⟩

/-- The work ends after its phases, and until then the history is what it was. -/
lemma exists_worked_eq (t : Tracker) (info : TxMeta) (id timestamp : String)
    (phases : List TxPhase) (work : Ending WorkResult) :
    ∃ t' : Tracker, t'.history = t.history ∧ t'.links = t.links ∧
      worked t info id timestamp phases work
        = (atWorkEnd info id timestamp phases).step t' (.finishWork work) := by
  obtain ⟨hc, hh, hl⟩ := start_eq t info id timestamp
  obtain ⟨hrun, hhistory, hlinks⟩ :=
    run_phases (start t info id timestamp).1 (start t info id timestamp).2 phases
  have hphases : phases.foldl moved (pending info id timestamp)
      = atWorkEnd info id timestamp phases :=
    foldl_moved (c := pending info id timestamp) rfl rfl phases
  rw [hc, hphases] at hrun
  refine ⟨_, hhistory.trans hh, hlinks.trans hl, ?_⟩
  rw [← hrun, worked, run, List.foldl_append]
  rfl

/-- What is known of a call and its tracker when the work has ended. -/
lemma worked_spec (info : TxMeta) (id timestamp : String) (phases : List TxPhase)
    (hq : t.history.Quiet) (hn : work.KindIsText) :
    let r := worked t info id timestamp phases work
    r.1 = afterWork t.links info id timestamp phases work ∧ r.1.entry.kind.IsKnown ∧
      r.1.Concerns info id ∧ r.2.history = historyAfter t.history r.1 ∧ r.2.history.Quiet ∧
      r.2.links = t.links := by
  intro r
  obtain ⟨t', hh, hl, hworked⟩ := exists_worked_eq t info id timestamp phases work
  have hq' : t'.history.Quiet := by rwa [hh]
  have hknown : (atWorkEnd info id timestamp phases).entry.kind.IsKnown := ⟨info.kind, rfl⟩
  have hatEnd : (atWorkEnd info id timestamp phases).Concerns info id :=
    ⟨rfl, rfl, Or.inl rfl, Or.inl rfl, Or.inl rfl⟩
  obtain ⟨hcall, hholds⟩ := step_of_quiet hq' hknown (s := .finishWork work) hn
  have hhistory := step_history hq' hknown (s := .finishWork work) hn rfl
  rw [← hworked, hl] at hcall hhistory
  rw [← hworked] at hholds
  rw [hh, ← hcall] at hhistory
  refine ⟨hcall, ?_, ?_, hhistory, hholds.quiet, hholds.links.trans hl⟩
  · rw [show r.1 = _ from hcall]
    exact next_isKnown hknown t.links (s := .finishWork work) hn
  · rw [show r.1 = _ from hcall]
    exact hatEnd.next t.links (.finishWork work)

/-- Tracking a call pushes its entry. -/
lemma track_settled (info : TxMeta) (id timestamp : String) (phases : List TxPhase)
    (hq : t.history.Quiet) (hn : work.KindIsText) (wait : String → RecordedKind → Ending Unit) :
    Settled t info id (track t info id timestamp phases work wait) ∧
      (work ≠ .cancelled → (∀ hash kind, wait hash kind ≠ .cancelled) →
        EndsOrdinarily (track t info id timestamp phases work wait).call.stage) := by
  obtain ⟨hcall, hknown, hconcerns, hhistory, hquiet, hlinks⟩ :=
    worked_spec info id timestamp phases hq hn
  have hstage := afterWork_stage t.links info id timestamp phases hn
  rw [← hcall] at hstage
  rcases hstage with ⟨hash, hs⟩ | ⟨he, hord⟩
  · have hopen : (worked t info id timestamp phases work).1.isEnded = false := by
      rw [isEnded, hs]
    have hlast : (CallStep.finishConfirmation
        (wait hash (worked t info id timestamp phases work).1.entry.kind)).KindIsText := trivial
    rw [historyAfter, hopen] at hhistory
    obtain ⟨hend, hord⟩ := confirmation_stage t.links hs
      (wait hash (worked t info id timestamp phases work).1.entry.kind)
    obtain ⟨hnext, -⟩ := step_of_quiet hquiet hknown hlast
    have hafter := step_history hquiet hknown hlast hopen
    rw [hlinks] at hnext hafter
    rw [historyAfter, if_pos hend, hhistory] at hafter
    rw [track_of_stage_confirming hs]
    dsimp only
    rw [hnext]
    exact ⟨⟨next_isKnown hknown t.links hlast, hconcerns.next t.links (.finishConfirmation _),
      hafter⟩, fun _ hwait => hord (hwait _ _)⟩
  · rw [historyAfter, if_pos he] at hhistory
    obtain ⟨outcome, hs⟩ := exists_outcome he
    rw [track_of_stage_ended hs]
    exact ⟨⟨hknown, hconcerns, hhistory⟩, fun hw _ => hord hw⟩

/-- Only what is handed over counts. -/
lemma track_congr {r r' : WorkResult} (h : ∀ kind, r.extract kind = r'.extract kind)
    (wait : String → RecordedKind → Ending Unit) :
    track t info id timestamp phases (.returned r) wait
      = track t info id timestamp phases (.returned r') wait := by
  have hfinish (c : Call) (t : Tracker) :
      c.step t (.finishWork (.returned r)) = c.step t (.finishWork (.returned r')) := by
    simp only [step, finishWork, receive, h]
  have hworked : worked t info id timestamp phases (.returned r)
      = worked t info id timestamp phases (.returned r') := by
    simp only [worked, run, List.foldl_append, List.foldl_cons, List.foldl_nil, hfinish]
  unfold worked at hworked
  unfold track
  simp only [hworked]

end Call

/-! ### Usable kinds -/

/-- The kind among the fields that work hands over, if any, is usable. -/
def Ending.KindIsUsable : Ending WorkResult → Prop
  | .returned (.fields fs) => WorkResult.HasUsableKind fs
  | _ => True

/-- What a tracker is used for: to record a draft, or to track work from its start to its end. -/
inductive TrackerUse where
  | append (d : Draft) (id timestamp : String)
  | track (info : TxMeta) (id timestamp : String) (phases : List TxPhase)
      (work : Ending WorkResult) (wait : String → RecordedKind → Ending Unit)

namespace TrackerUse

def id : TrackerUse → String
  | .append _ id _ => id
  | .track _ id _ _ _ _ => id

/-- The amount has a text that reads back, and a reported kind is usable. -/
def IsUsable : TrackerUse → Prop
  | .append d _ _ => Json.IsReadable d.amount
  | .track info _ _ _ work _ => Json.IsReadable info.amount ∧ work.KindIsUsable

/-- The tracker after a use. -/
def run (t : Tracker) : TrackerUse → Tracker
  | .append d id timestamp => (t.append d id timestamp).2
  | .track info id timestamp phases work wait =>
    (Call.track t info id timestamp phases work wait).tracker

end TrackerUse

namespace Tracker

/-- The history of the tracker can be saved, and has been. -/
structure IsSaved (t : Tracker) : Prop where
  savable : t.history.IsSavable
  mirrored : t.history.IsMirrored

/-- A tracker has recorded one entry more, and its history has been saved. -/
structure Adds (t t' : Tracker) (id : String) : Prop where
  saved : t'.IsSaved
  record : ∃ e, e.id = id ∧ t'.history.entries = t.history.record e

lemma adds_of_push {t t' : Tracker} {id : String} (hs : t.history.IsSavable) {e : HistoryEntry}
    (hk : e.kind.IsKnown) (hp : History.ReadsBack t.history.storage.reader e) (hid : e.id = id)
    (hh : t'.history = (t.history.push e).2) : t.Adds t' id := by
  obtain ⟨-, hentries, -, hsavable, hmirrored⟩ := hs.push hk hp
  rw [← hh] at hentries hsavable hmirrored
  exact ⟨⟨hsavable, hmirrored⟩, e, hid, hentries⟩

end Tracker

namespace Call

variable {t : Tracker} {info : TxMeta} {id timestamp : String} {phases : List TxPhase}

/-- Work of a usable kind is as good as work without any odd kind. -/
lemma exists_textual {work : Ending WorkResult} (h : work.KindIsUsable) :
    ∃ work' : Ending WorkResult, work'.KindIsText ∧ (work = .cancelled ↔ work' = .cancelled) ∧
      ∀ t info id timestamp phases wait, track t info id timestamp phases work wait
        = track t info id timestamp phases work' wait := by
  cases work with
  | raised fault => exact ⟨.raised fault, trivial, Iff.rfl, fun _ _ _ _ _ _ => rfl⟩
  | cancelled => exact ⟨.cancelled, trivial, Iff.rfl, fun _ _ _ _ _ _ => rfl⟩
  | returned result =>
    cases result with
    | fields fs =>
      obtain ⟨r, hr, heq⟩ := WorkResult.HasUsableKind.exists_eq h
      exact ⟨.returned r, hr, by simp, fun _ _ _ _ _ wait => track_congr heq wait⟩
    | plain s => exact ⟨.returned (.plain s), trivial, Iff.rfl, fun _ _ _ _ _ _ => rfl⟩
    | tracked hash kind =>
      exact ⟨.returned (.tracked hash kind), trivial, Iff.rfl, fun _ _ _ _ _ _ => rfl⟩
    | other v => exact ⟨.returned (.other v), trivial, Iff.rfl, fun _ _ _ _ _ _ => rfl⟩

lemma track_adds (id timestamp : String) (phases : List TxPhase) (hs : t.history.IsSavable)
    (ha : Json.IsReadable info.amount) {work : Ending WorkResult} (hn : work.KindIsUsable)
    (wait : String → RecordedKind → Ending Unit) :
    t.Adds (track t info id timestamp phases work wait).tracker id ∧
      (work ≠ .cancelled → (∀ hash kind, wait hash kind ≠ .cancelled) →
        EndsOrdinarily (track t info id timestamp phases work wait).call.stage) := by
  obtain ⟨work', hn', hcancelled, heq⟩ := exists_textual hn
  obtain ⟨hsettled, hord⟩ := track_settled info id timestamp phases hs.quiet hn' wait
  rw [heq]
  refine ⟨Tracker.adds_of_push hs hsettled.known (hsettled.concerns.readsBack ha _)
    hsettled.concerns.id hsettled.history, ?_⟩
  exact fun hw hwait => hord (fun hw' => hw (hcancelled.2 hw')) hwait

end Call

namespace TrackerUse

/-- Every use of a tracker that can be saved adds one record, which is saved. -/
lemma run_adds {t : Tracker} (hs : t.history.IsSavable) {u : TrackerUse} (hu : u.IsUsable) :
    t.Adds (u.run t) u.id := by
  cases u with
  | append d id timestamp =>
    have hp : History.ReadsBack t.history.storage.reader (d.entry t.links id timestamp) :=
      ⟨hu, (Draft.isRemark_optionalText _).isPlain, (Draft.isRemark_optionalText _).isPlain,
        (Draft.isRemark_optionalText _).isPlain⟩
    exact Tracker.adds_of_push hs ⟨d.kind, rfl⟩ hp rfl (t.commit_eq _).2
  | track info id timestamp phases work wait =>
    exact (Call.track_adds id timestamp phases hs hu.1 hu.2 wait).1

/-- The same after any other uses. -/
lemma runs_adds {t : Tracker} (hs : t.history.IsSavable) (us : List TrackerUse)
    (hus : ∀ u ∈ us, u.IsUsable) (u : TrackerUse) (hu : u.IsUsable) :
    (us.foldl TrackerUse.run t).Adds (u.run (us.foldl TrackerUse.run t)) u.id := by
  induction us generalizing t with
  | nil => exact run_adds hs hu
  | cons x r ih =>
    have hx := run_adds hs (hus x (by simp))
    exact ih hx.saved.savable fun y hy => hus y (by simp [hy])

end TrackerUse

end StellarWallet
