import Mathlib.Algebra.Order.BigOperators.Group.List
import Mathlib.Algebra.Order.Ring.Nat
import StellarWallet.Log.Logging
import StellarWallet.Proofs.Storage.Tree

/-!
What a setup of logging that fails leaves behind.

A setup takes the targets of the one before away and sets its own level before it makes its folder
and opens its file. When that fails, nothing is written from then on, up to a setup that succeeds;
and if a setup has succeeded before, only a forced one is not passed over. What was written stays,
and so do the folders that were made.
-/

namespace StellarWallet

/-- What a program does with logging. -/
inductive LogStep where
  | setup (env : Environment) (given : Option LogSettings) (force : Bool)
  | record (now : Instant) (call : LogCall)

/-- The file of a target is there. -/
def LogSink.IsOpen (tree : FileTree) (sink : LogSink) : Prop :=
  ∀ place, sink.target = .file place → ∃ text, (place, text) ∈ tree.files

/-- The settings of a setup: the given ones, or those of the environment. -/
def LogSettings.chosen (env : Environment) (given : Option LogSettings) :
    Except Fault LogSettings :=
  (given.map Except.ok).getD (LogSettings.ofEnvironment env)

namespace Logging

variable {l l' : Logging} {env : Environment} {given : Option LogSettings} {force : Bool}
  {s : LogSettings} {fault : Fault} {now : Instant} {call : LogCall} {r : LogRecord}

/-- Carries out one step. -/
def step (l : Logging) : LogStep → Except Fault Unit × Logging
  | .setup env given force => l.setup env given force
  | .record now call => l.log now call

/-- Carries out steps, whether they fail or not. -/
def run (l : Logging) (steps : List LogStep) : Logging :=
  steps.foldl (fun l step => (l.step step).2) l

/-- A state that some steps lead to in a process that starts among any files. -/
def Reached (l : Logging) : Prop :=
  ∃ (tree : FileTree) (console : String) (steps : List LogStep), l = run { tree, console } steps

/-- What has been written to files and to the console. -/
def written (l : Logging) : List (PathParts × String) × String := (l.tree.files, l.console)

/-- The step is a setup that is not passed over and succeeds. -/
def TakesEffect (l : Logging) : LogStep → Prop
  | .setup env given force => (l.ready && !force) = false ∧ (l.setup env given force).1 = .ok ()
  | .record _ _ => False

/-- None of the steps is a setup that takes effect. -/
def Idle : Logging → List LogStep → Prop
  | _, [] => True
  | l, step :: steps => ¬ l.TakesEffect step ∧ Idle (l.step step).2 steps

/-! ### Setups -/

lemma setup_ignored (h : (l.ready && !force) = true) : l.setup env given force = (.ok (), l) :=
  if_pos h

lemma setup_eq (h : (l.ready && !force) = false) : l.setup env given force =
    match LogSettings.chosen env given with
    | .error fault => (.error fault, l)
    | .ok s => l.apply env s := if_neg (by rw [h]; exact Bool.false_ne_true)

lemma openFile_error {tree tree' : FileTree} (h : openFile tree env s = (.error fault, tree')) :
    tree.AddsFolders tree' := by
  unfold openFile at h
  split at h
  · cases h; exact .refl tree
  · next folder _ =>
    have hadds := FileTree.needFolders_adds tree folder.parts
    split at h
    · next hneed => rw [hneed] at hadds; cases h; exact hadds
    · next hneed =>
      rw [hneed] at hadds
      split at h
      · cases h; exact hadds
      · cases h

/-- The file that was opened, and what is in all files then. -/
lemma openFile_spec {tree tree' : FileTree} {place : PathParts}
    (h : openFile tree env s = (.ok place, tree')) :
    ∃ folder, s.folder env = .ok folder ∧
      place = FileTree.flatten (folder.join (Path.ofText s.fileName)).parts ∧
      ∀ other, tree'.text? other
        = if other = place then some ((tree.text? other).getD "") else tree.text? other := by
  unfold openFile at h
  split at h
  · cases h
  · next folder hfolder =>
    have hadds := FileTree.needFolders_adds tree folder.parts
    split at h
    · cases h
    · next tree₁ hfolders =>
      rw [hfolders] at hadds
      split at h
      · cases h
      · next hneed =>
        cases h
        obtain ⟨hplace, htext⟩ := FileTree.text?_of_needFile hneed
        refine ⟨folder, hfolder, hplace, fun other => ?_⟩
        rw [htext, hadds.text?_eq]

lemma openFile_ok {tree tree' : FileTree} {place : PathParts}
    (h : openFile tree env s = (.ok place, tree')) : ∃ text, (place, text) ∈ tree'.files := by
  obtain ⟨-, -, -, htext⟩ := openFile_spec h
  have hplace := htext place
  rw [if_pos rfl] at hplace
  exact ⟨_, FileTree.mem_files_of_text? hplace⟩

lemma apply_error (h : l.apply env s = (.error fault, l')) :
    s.toFile = true ∧ ∃ tree, l.tree.AddsFolders tree ∧ l' = { l.begin s with tree } := by
  unfold apply at h
  split at h
  · next hfile =>
    split at h
    · next hopen => cases h; exact ⟨hfile, _, openFile_error hopen, rfl⟩
    · cases h
  · cases h

/-- The file of every target is there. -/
def AllOpen (l : Logging) : Prop := ∀ sink ∈ l.sinks, sink.IsOpen l.tree

lemma apply_ok (h : l.apply env s = (.ok (), l')) : l'.AllOpen := by
  have hopen : ∀ {tree : FileTree} {place : Option PathParts},
      (∀ p, place = some p → ∃ text, (p, text) ∈ tree.files) →
      ∀ sink ∈ sinksOf s place, sink.IsOpen tree := by
    intro tree place hplace sink hsink p hp
    obtain hsink | hsink := List.mem_append.1 hsink
    · cases place with
      | none => cases hsink
      | some q =>
        obtain rfl := List.mem_singleton.1 hsink
        obtain rfl : q = p := LogTarget.file.inj hp
        exact hplace q rfl
    · split at hsink
      · obtain rfl := List.mem_singleton.1 hsink
        cases hp
      · cases hsink
  unfold apply at h
  split at h
  · split at h
    · cases h
    · next place tree hfile =>
      cases h
      exact hopen fun p hp => by cases hp; exact openFile_ok hfile
  · cases h
    exact hopen fun p hp => by cases hp

lemma setup_cases {outcome : Except Fault Unit}
    (h : l.setup env given force = (outcome, l')) :
    (l' = l ∧ ∀ fault, outcome = .error fault → LogSettings.chosen env given = .error fault) ∨
      ∃ s, LogSettings.chosen env given = .ok s ∧ l.apply env s = (outcome, l') := by
  cases hready : (l.ready && !force) with
  | true =>
    rw [setup_ignored hready] at h
    cases h
    exact Or.inl ⟨rfl, fun fault hfault => by cases hfault⟩
  | false =>
    rw [setup_eq hready] at h
    cases hs : LogSettings.chosen env given with
    | error fault => rw [hs] at h; cases h; exact Or.inl ⟨rfl, fun _ h => by cases h; rfl⟩
    | ok s => rw [hs] at h; exact Or.inr ⟨s, rfl, h⟩

/-! ### Records -/

/-- How much has been written. -/
def volume (w : List (PathParts × String) × String) : Nat :=
  (w.1.map fun f => f.2.length).sum + w.2.length

lemma log_cases (l : Logging) (now : Instant) (call : LogCall) :
    (l.log now call).2 = l ∨ ∃ r, (l.log now call).2 = l.write now r := by
  unfold log
  split
  · exact Or.inl rfl
  · split
    · exact Or.inl rfl
    · exact Or.inl rfl
    · split
      · exact Or.inr ⟨_, rfl⟩
      · exact Or.inl rfl

lemma log_of_sinks_nil (h : l.sinks = []) : (l.log now call).2 = l := by
  obtain hl | ⟨r, hl⟩ := log_cases l now call
  · exact hl
  · rw [hl, write, h]
    rfl

@[simp] lemma sinks_addLine (line : String) (target : LogTarget) :
    (l.addLine line target).sinks = l.sinks := by
  cases target <;> rfl

@[simp] lemma encodes_addLine (line : String) (target : LogTarget) :
    (l.addLine line target).encodes = l.encodes := by
  cases target <;> rfl

@[simp] lemma sinks_emit (sink : LogSink) : (emit now r l sink).sinks = l.sinks := by
  unfold emit
  dsimp only
  split <;> simp

@[simp] lemma encodes_emit (sink : LogSink) : (emit now r l sink).encodes = l.encodes := by
  unfold emit
  dsimp only
  split <;> simp

lemma isOpen_addLine {sink : LogSink} (h : sink.IsOpen l.tree) (line : String)
    (target : LogTarget) : sink.IsOpen (l.addLine line target).tree := by
  intro place hplace
  obtain ⟨text, hmem⟩ := h place hplace
  cases target with
  | console => exact ⟨text, hmem⟩
  | file other =>
    rw [addLine, FileTree.files_append]
    exact ⟨_, List.mem_map_of_mem hmem⟩

lemma isOpen_emit {sink sink' : LogSink} (h : sink'.IsOpen l.tree) :
    sink'.IsOpen (emit now r l sink).tree := by
  unfold emit
  dsimp only
  split
  · exact isOpen_addLine h _ _
  · exact h

lemma sum_length_append_lt {files : List (PathParts × String)} {place : PathParts}
    {text line : String} (hmem : (place, text) ∈ files) (hline : 0 < line.length) :
    (files.map fun f => f.2.length).sum
      < ((files.map fun f => (f.1, if f.1 = place then f.2 ++ line else f.2)).map
          fun f => f.2.length).sum := by
  rw [List.map_map]
  refine List.sum_lt_sum _ _ (fun f _ => ?_) ⟨_, hmem, ?_⟩
  · dsimp only [Function.comp]
    split
    · rw [String.length_append]
      exact Nat.le_add_right _ _
    · exact Nat.le_refl _
  · dsimp only [Function.comp]
    rw [if_pos rfl, String.length_append]
    exact Nat.lt_add_of_pos_right hline

lemma volume_addLine {line : String} (hline : 0 < line.length) {sink : LogSink}
    (h : sink.IsOpen l.tree) :
    volume l.written < volume (l.addLine line sink.target).written := by
  unfold written volume
  cases htarget : sink.target with
  | console =>
    dsimp only [addLine]
    rw [String.length_append l.console]
    omega
  | file place =>
    obtain ⟨text, hmem⟩ := h place htarget
    have hlt := sum_length_append_lt hmem hline
    dsimp only [addLine]
    rw [FileTree.files_append]
    omega

/-- Every target can write every character. -/
def EncodesAll (l : Logging) : Prop := ∀ target c, l.encodes target c = true

/-- Every target gets something. -/
lemma volume_emit (hall : l.EncodesAll) (now : Instant) (r : LogRecord) {sink : LogSink}
    (h : sink.IsOpen l.tree) : volume l.written < volume (emit now r l sink).written := by
  have hline : 0 < (sink.format.line now r ++ "\n").length := by
    rw [String.length_append]
    exact Nat.succ_pos _
  have hencodes : (sink.format.line now r ++ "\n").toList.all (l.encodes sink.target) = true :=
    List.all_eq_true.2 fun c _ => hall sink.target c
  rw [emit, if_pos hencodes]
  exact volume_addLine hline h

lemma volume_foldl_emit (hall : l.EncodesAll) (now : Instant) (r : LogRecord)
    {sinks : List LogSink} (h : ∀ sink ∈ sinks, sink.IsOpen l.tree) :
    volume l.written + sinks.length ≤ volume (sinks.foldl (emit now r) l).written := by
  induction sinks generalizing l with
  | nil => exact Nat.le_refl _
  | cons sink sinks ih =>
    rw [List.forall_mem_cons] at h
    have hfirst := volume_emit hall now r h.1
    have hall' : (emit now r l sink).EncodesAll := by rwa [EncodesAll, encodes_emit]
    have hrest := ih hall' fun sink' hmem => isOpen_emit (h.2 sink' hmem)
    rw [List.foldl_cons, List.length_cons]
    omega

lemma AllOpen.foldl_emit (h : l.AllOpen) (now : Instant) (r : LogRecord) (sinks : List LogSink) :
    (sinks.foldl (emit now r) l).AllOpen := by
  induction sinks generalizing l with
  | nil => exact h
  | cons sink sinks ih =>
    refine ih fun sink' hmem => isOpen_emit (h sink' ?_)
    rwa [sinks_emit] at hmem

lemma AllOpen.write (h : l.AllOpen) : (l.write now r).AllOpen := h.foldl_emit now r l.sinks

/-! ### Reachable states -/

lemma AllOpen.step (h : l.AllOpen) (x : LogStep) : (l.step x).2.AllOpen := by
  cases x with
  | record now call =>
    obtain hl | ⟨r, hl⟩ := log_cases l now call
    · exact hl.symm ▸ h
    · exact hl.symm ▸ h.write
  | setup env given force =>
    show (l.setup env given force).2.AllOpen
    cases hsetup : l.setup env given force with
    | mk outcome l' =>
      obtain ⟨rfl, -⟩ | ⟨s, -, happly⟩ := setup_cases hsetup
      · exact h
      · cases outcome with
        | ok u => exact apply_ok happly
        | error fault =>
          obtain ⟨-, tree, -, rfl⟩ := apply_error happly
          exact fun sink hsink => by cases hsink

lemma AllOpen.run (h : l.AllOpen) (steps : List LogStep) : (l.run steps).AllOpen := by
  induction steps generalizing l with
  | nil => exact h
  | cons x steps ih => exact ih (h.step x)

lemma encodes_foldl_emit (now : Instant) (r : LogRecord) (sinks : List LogSink) :
    (sinks.foldl (emit now r) l).encodes = l.encodes := by
  induction sinks generalizing l with
  | nil => rfl
  | cons sink sinks ih => exact ih.trans (encodes_emit sink)

lemma encodes_apply (l : Logging) (env : Environment) (s : LogSettings) :
    (l.apply env s).2.encodes = l.encodes := by
  unfold apply
  split
  · split <;> rfl
  · rfl

/-- No step changes what the targets can write. -/
lemma encodes_step (l : Logging) (x : LogStep) : (l.step x).2.encodes = l.encodes := by
  cases x with
  | record now call =>
    obtain hl | ⟨r, hl⟩ := log_cases l now call
    · exact congrArg encodes hl
    · exact (congrArg encodes hl).trans (encodes_foldl_emit now r l.sinks)
  | setup env given force =>
    cases hsetup : l.setup env given force with
    | mk outcome l' =>
      have hstep : (l.step (.setup env given force)).2 = l' := congrArg Prod.snd hsetup
      rw [hstep]
      obtain ⟨rfl, -⟩ | ⟨s, -, happly⟩ := setup_cases hsetup
      · rfl
      · have h := encodes_apply l env s
        rwa [happly] at h

lemma encodes_run (l : Logging) (steps : List LogStep) : (l.run steps).encodes = l.encodes := by
  induction steps generalizing l with
  | nil => rfl
  | cons x steps ih => exact (ih (l.step x).2).trans (encodes_step l x)

lemma Reached.allOpen (h : l.Reached) : l.AllOpen := by
  obtain ⟨tree, console, steps, rfl⟩ := h
  exact AllOpen.run (fun sink hsink => by cases hsink) steps

lemma Reached.encodesAll (h : l.Reached) : l.EncodesAll := by
  obtain ⟨tree, console, steps, rfl⟩ := h
  rw [EncodesAll, encodes_run]
  exact fun target c => rfl

/-! ### Without targets -/

lemma idle_step (hsinks : l.sinks = []) {x : LogStep} (hx : ¬ l.TakesEffect x) :
    (l.step x).2.sinks = [] ∧ (l.step x).2.written = l.written := by
  cases x with
  | record now call =>
    have hl : (l.step (.record now call)).2 = l := log_of_sinks_nil hsinks
    rw [hl]
    exact ⟨hsinks, rfl⟩
  | setup env given force =>
    show (l.setup env given force).2.sinks = [] ∧ (l.setup env given force).2.written = l.written
    cases hready : (l.ready && !force) with
    | true =>
      rw [setup_ignored hready]
      exact ⟨hsinks, rfl⟩
    | false =>
      cases hsetup : l.setup env given force with
      | mk outcome l' =>
        cases outcome with
        | ok u => exact absurd ⟨hready, congrArg Prod.fst hsetup⟩ hx
        | error fault =>
          obtain ⟨rfl, -⟩ | ⟨s, -, happly⟩ := setup_cases hsetup
          · exact ⟨hsinks, rfl⟩
          · obtain ⟨-, tree, hadds, rfl⟩ := apply_error happly
            exact ⟨rfl, Prod.ext hadds.files_eq rfl⟩

lemma written_run_of_idle {steps : List LogStep} (hsinks : l.sinks = []) (h : l.Idle steps) :
    (l.run steps).written = l.written := by
  induction steps generalizing l with
  | nil => rfl
  | cons x steps ih =>
    obtain ⟨hnil, hwritten⟩ := idle_step hsinks h.1
    exact (ih hnil h.2).trans hwritten

/-- A record that every logger of the wallet makes. -/
def alarm : LogCall := { logger := rootLogger, level := .critical, template := "" }

lemma exists_log_alarm (l : Logging) (now : Instant) :
    ∃ r, (l.log now alarm).2 = l.write now r := by
  have hlevel : ¬ alarm.level.rank < (l.threshold alarm.logger).rank := by
    cases l.threshold alarm.logger <;> decide
  have hrecord : alarm.record? =
      .ok (some { logger := rootLogger, level := .critical, message := "" }) := rfl
  have hcovers : covers alarm.logger = true := by decide
  rw [log, if_neg hlevel, hrecord]
  dsimp only
  rw [if_pos hcovers]
  exact ⟨_, rfl⟩

lemma volume_log_alarm (hall : l.EncodesAll) (hopen : l.AllOpen) (hne : l.sinks ≠ [])
    (now : Instant) : volume l.written < volume (l.log now alarm).2.written := by
  obtain ⟨r, hr⟩ := exists_log_alarm l now
  have hle := volume_foldl_emit hall now r hopen
  have hpos := List.length_pos_of_ne_nil hne
  rw [hr, write]
  omega

/-! ### Setups that fail -/

lemma setup_congr (htree : l'.tree = l.tree) (hconsole : l'.console = l.console)
    (hready : l'.ready = l.ready) (hencodes : l'.encodes = l.encodes)
    (hnot : (l.ready && !force) = false)
    (hs : LogSettings.chosen env given = .ok s) :
    l'.setup env given force = l.setup env given force := by
  have hbegin : l'.begin s = l.begin s := by
    unfold begin
    rw [htree, hconsole, hready, hencodes]
  have hnot' : (l'.ready && !force) = false := by rw [hready, hnot]
  rw [setup_eq hnot, setup_eq hnot', hs]
  dsimp only
  unfold apply
  rw [hbegin, htree]

/-- With the same files, a setup does the same, and one that takes effect leads to the same
state. -/
lemma setup_again (htree : l'.tree = l.tree) (hconsole : l'.console = l.console)
    (hready : l'.ready = l.ready) (hencodes : l'.encodes = l.encodes) :
    (l'.setup env given force).1 = (l.setup env given force).1 ∧
      (l.TakesEffect (.setup env given force) →
        l'.setup env given force = l.setup env given force) := by
  cases hnot : (l.ready && !force) with
  | true =>
    rw [setup_ignored hnot, setup_ignored (by rw [hready, hnot])]
    exact ⟨rfl, fun heffect => Bool.noConfusion (hnot.symm.trans heffect.1)⟩
  | false =>
    cases hs : LogSettings.chosen env given with
    | ok s =>
      have hsame := setup_congr htree hconsole hready hencodes hnot hs
      exact ⟨congrArg Prod.fst hsame, fun _ => hsame⟩
    | error fault =>
      have herror : l.setup env given force = (.error fault, l) := by rw [setup_eq hnot, hs]
      have herror' : l'.setup env given force = (.error fault, l') := by
        rw [setup_eq (by rw [hready, hnot]), hs]
      refine ⟨by rw [herror, herror'], fun heffect => ?_⟩
      have hok := heffect.2
      rw [herror] at hok
      cases hok

/-- What a setup with settings that are known leaves behind when it fails. -/
structure Silenced (s : LogSettings) (before after : Logging) : Prop where
  level : after.level = some s.level
  sinks : after.sinks = []
  ready : after.ready = before.ready
  console : after.console = before.console
  folders : before.tree.AddsFolders after.tree
  /-- Until a setup takes effect, nothing is written. -/
  silent : ∀ steps, after.Idle steps → (after.run steps).written = before.written
  /-- If a setup has taken effect before, one that is not forced is still passed over. -/
  ignored : before.ready = true → ∀ env given, after.setup env given false = (.ok (), after)
  /-- Any other setup does what it would have done, if no new folder is in its way. -/
  again : after.tree = before.tree → ∀ env given force,
    (after.setup env given force).1 = (before.setup env given force).1 ∧
      (before.TakesEffect (.setup env given force) →
        after.setup env given force = before.setup env given force)
  /-- Later records are as if nothing had happened just if there was no target to lose. -/
  lossless_iff : (∀ now call, (after.log now call).2.written = (before.log now call).2.written) ↔
    before.sinks = []

lemma silenced_of_apply_error (hall : l.EncodesAll) (hopen : l.AllOpen)
    (h : l.apply env s = (.error fault, l')) :
    Silenced s l l' := by
  obtain ⟨-, tree, hadds, rfl⟩ := apply_error h
  have hwritten : written { l.begin s with tree } = l.written := Prod.ext hadds.files_eq rfl
  exact {
    level := rfl
    sinks := rfl
    ready := rfl
    console := rfl
    folders := hadds
    silent := fun steps hidle => (written_run_of_idle rfl hidle).trans hwritten
    ignored := by
      intro hready env given
      refine setup_ignored ?_
      show (l.ready && !false) = true
      rw [hready]
      rfl
    again := fun htree env given force => setup_again htree rfl rfl rfl
    lossless_iff := by
      have hlost : ∀ now call, ((Logging.log { l.begin s with tree } now call).2).written
          = l.written := fun now call => by rw [log_of_sinks_nil rfl, hwritten]
      constructor
      · intro hsame
        by_contra hne
        have hlt := volume_log_alarm hall hopen hne ⟨0, 0⟩
        rw [← hsame, hlost] at hlt
        exact Nat.lt_irrefl _ hlt
      · intro hnil now call
        rw [hlost, log_of_sinks_nil hnil] }

/-- **A setup that fails silences logging.** A setup that cannot read its settings changes nothing.
Any other one that fails was to log to a file; it leaves its own level and no target at all, and
perhaps new folders. From then on nothing is written until a setup takes effect, which none does
without force if one has before; one that does, among the same files, leads where it would have led.
So later records are as if the failed call had not been made just if none was written anyway. -/
theorem failed_setup_silences (hl : l.Reached)
    (h : l.setup env given force = (.error fault, l')) :
    (LogSettings.chosen env given = .error fault ∧ l' = l) ∨
      ∃ s, LogSettings.chosen env given = .ok s ∧ s.toFile = true ∧ Silenced s l l' := by
  obtain ⟨rfl, hchosen⟩ | ⟨s, hs, happly⟩ := setup_cases h
  · exact Or.inl ⟨hchosen fault rfl, rfl⟩
  · exact Or.inr ⟨s, hs, (apply_error happly).1,
      silenced_of_apply_error hl.encodesAll hl.allOpen happly⟩

/-- Settings that name a folder and leave the rest as it is. -/
def settingsIn (folder : String) : LogSettings := { directory := some (Path.ofText folder) }

/-- Logging to a file in the folder `a`, with one line in it. -/
def loggingInA : Logging := run {} [.setup [] (some (settingsIn "a")) false,
  .record ⟨1700000000, 0⟩ { logger := "arena_wallet.x", level := .info, template := "one" }]

/-- The same after a setup that takes the file for a folder. -/
def loggingNowhere : Logging := (loggingInA.setup [] (some (settingsIn "a/wallet.log")) true).2

theorem setup_in_a_file_silences :
    loggingInA.setup [] (some (settingsIn "a/wallet.log")) true
        = (.error TreeFault.exists.toFault, loggingNowhere) ∧
      ((LogSettings.chosen [] (some (settingsIn "a/wallet.log"))
          = .error TreeFault.exists.toFault ∧ loggingNowhere = loggingInA) ∨
        ∃ s, LogSettings.chosen [] (some (settingsIn "a/wallet.log")) = .ok s ∧
          s.toFile = true ∧ Silenced s loggingInA loggingNowhere) :=
  have hsetup : loggingInA.setup [] (some (settingsIn "a/wallet.log")) true
      = (.error TreeFault.exists.toFault, loggingNowhere) := Prod.ext (by decide +kernel) rfl
  ⟨hsetup, failed_setup_silences ⟨.empty, "", _, rfl⟩ hsetup⟩

/-- The record after the failed setup is lost; without that call it would have been written. -/
theorem record_after_failed_setup_is_lost :
    let note : LogCall := { logger := "arena_wallet.x", level := .info, template := "two" }
    let place := ["a".toList, "wallet.log".toList]
    loggingInA.setup [] (some (settingsIn "a/wallet.log")) true
        = (.error TreeFault.exists.toFault, loggingNowhere) ∧
      (loggingInA.log ⟨1700000000, 0⟩ note).2.tree.files
        = [(place, "2023-11-14 22:13:20 - arena_wallet.x - INFO - one\n"
            ++ "2023-11-14 22:13:20 - arena_wallet.x - INFO - two\n")] ∧
      (loggingNowhere.log ⟨1700000000, 0⟩ note).2.tree.files
        = [(place, "2023-11-14 22:13:20 - arena_wallet.x - INFO - one\n")] :=
  ⟨Prod.ext (by decide +kernel) rfl, by decide +kernel, by decide +kernel⟩

end Logging

end StellarWallet
