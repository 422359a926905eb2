import StellarWallet.Proofs.Log.FailedSetup

/-!
Which lines are written where, when setups succeed.

The first setup counts, and every forced one after it. From then on each record of the wallet's
loggers, from the level of the settings on, becomes one line at the end of each target that the
settings ask for, if that can write the line, and nothing else is ever written. What a target holds
is therefore what it held at first and, in order, the lines of all records made while it was a
target, but for those that it cannot write.
-/

namespace StellarWallet

namespace LogSettings

variable {env : Environment} {s : LogSettings} {target : LogTarget}

/-- The place of the file that settings ask for, if they ask for one. -/
def place? (env : Environment) (s : LogSettings) : Option PathParts :=
  if s.toFile then
    (s.folder env).toOption.map fun folder =>
      FileTree.flatten (folder.join (Path.ofText s.fileName)).parts
  else none

/-- The targets that settings ask for. -/
def targets (env : Environment) (s : LogSettings) : List LogTarget :=
  ((s.place? env).map LogTarget.file).toList ++ if s.toConsole then [.console] else []

/-- The sinks that settings ask for: one for each target, all with the same format. -/
def sinks (env : Environment) (s : LogSettings) : List LogSink :=
  (s.targets env).map fun target => ⟨target, s.format⟩

lemma nodup_targets (env : Environment) (s : LogSettings) : (s.targets env).Nodup := by
  unfold targets
  cases s.place? env <;> cases s.toConsole <;> simp

lemma file_mem_targets {place : PathParts} :
    .file place ∈ s.targets env ↔ s.place? env = some place := by
  unfold targets
  cases s.place? env <;> cases s.toConsole <;> simp [eq_comm]

lemma sinks_eq {place : Option PathParts} (h : s.place? env = place) :
    s.sinks env = Logging.sinksOf s place := by
  unfold sinks targets Logging.sinksOf
  rw [h]
  cases place <;> cases s.toConsole <;> rfl

/-- The line that a call gives a target while settings are in force, if it gives one: the target
must be able to write it. -/
def linesOf (encodes : LogTarget → Char → Bool) (env : Environment) (s : LogSettings)
    (target : LogTarget) (now : Instant) (call : LogCall) : List String :=
  match call.record? with
  | .ok (some r) =>
    if Logging.covers r.logger ∧ s.admits r ∧ target ∈ s.targets env ∧
      (s.line now r).toList.all (encodes target) then [s.line now r] else []
  | _ => []

end LogSettings

namespace LogStep

def isSetup : LogStep → Bool
  | .setup _ _ _ => true
  | .record _ _ => false

/-- The settings in force after steps, the latest first: those of the last setup that is forced, or
of the first one. -/
def inForce : List LogStep → Option (Environment × LogSettings)
  | [] => none
  | .record _ _ :: past => inForce past
  | .setup env given force :: past =>
    if force || !past.any isSetup then (LogSettings.chosen env given).toOption.map (env, ·)
    else inForce past

/-- The lines for a target after steps, the latest first. -/
def linesTo (encodes : LogTarget → Char → Bool) (target : LogTarget) : List LogStep → List String
  | [] => []
  | .setup _ _ _ :: past => linesTo encodes target past
  | .record now call :: past =>
    linesTo encodes target past ++ match inForce past with
      | none => []
      | some (env, s) => s.linesOf encodes env target now call

/-- A file was asked for by settings that have been in force. -/
def WasTarget (place : PathParts) (past : List LogStep) : Prop :=
  ∃ older env s, older <:+ past ∧ inForce older = some (env, s) ∧ s.place? env = some place

end LogStep

namespace Logging

open LogStep

variable {start l l' : Logging} {past : List LogStep} {env : Environment}
  {given : Option LogSettings} {force : Bool} {s : LogSettings} {now : Instant} {call : LogCall}
  {r : LogRecord} {target : LogTarget}

/-- What a target holds; a file that is not there holds nothing. -/
def textOf (l : Logging) : LogTarget → String
  | .file place => (l.tree.text? place).getD ""
  | .console => l.console

/-- Every setup among the steps succeeds. -/
def SetupsSucceed : Logging → List LogStep → Prop
  | _, [] => True
  | l, step :: steps =>
    (step.isSetup → (l.step step).1 = .ok ()) ∧ SetupsSucceed (l.step step).2 steps

/-- Logging after steps, the latest first, of which all setups have succeeded, in a process that
began with the files and the console of another state. -/
structure IsAfter (start : Logging) (past : List LogStep) (l : Logging) : Prop where
  level : l.level = (inForce past).map fun f => f.2.level
  sinks : l.sinks = ((inForce past).map fun f => f.2.sinks f.1).getD []
  ready : l.ready = past.any isSetup
  encodes : l.encodes = start.encodes
  /-- Each line is there once, in order, after what was there before. -/
  text : ∀ target, l.textOf target
    = start.textOf target ++ String.join (linesTo start.encodes target past)
  /-- No other files are made. -/
  files : ∀ place, (l.tree.text? place).isSome ↔
    (start.tree.text? place).isSome ∨ WasTarget place past
  ignored : past.any isSetup → ∀ env given, l.setup env given false = (.ok (), l)

/-! ### Writing a record -/

/-- Texts may have grown, and nothing else is different. -/
structure OnlyWrites (before after : Logging) : Prop where
  level : after.level = before.level
  sinks : after.sinks = before.sinks
  ready : after.ready = before.ready
  encodes : after.encodes = before.encodes
  files : ∀ place, (after.tree.text? place).isSome = (before.tree.text? place).isSome

lemma OnlyWrites.refl (l : Logging) : OnlyWrites l l := ⟨rfl, rfl, rfl, rfl, fun _ => rfl⟩

lemma OnlyWrites.trans {l'' : Logging} (h : OnlyWrites l l') (h' : OnlyWrites l' l'') :
    OnlyWrites l l'' where
  level := h'.level.trans h.level
  sinks := h'.sinks.trans h.sinks
  ready := h'.ready.trans h.ready
  encodes := h'.encodes.trans h.encodes
  files := fun place => (h'.files place).trans (h.files place)

lemma onlyWrites_addLine (l : Logging) (line : String) (target : LogTarget) :
    OnlyWrites l (l.addLine line target) := by
  cases target with
  | console => exact ⟨rfl, rfl, rfl, rfl, fun _ => rfl⟩
  | file other =>
    refine ⟨rfl, rfl, rfl, rfl, fun place => ?_⟩
    dsimp only [addLine]
    rw [FileTree.text?_append]
    split
    · exact Option.isSome_map
    · rfl

lemma onlyWrites_emit (now : Instant) (r : LogRecord) (l : Logging) (sink : LogSink) :
    OnlyWrites l (emit now r l sink) := by
  unfold emit
  dsimp only
  split
  · exact onlyWrites_addLine l _ _
  · exact .refl l

lemma onlyWrites_log (l : Logging) (now : Instant) (call : LogCall) :
    OnlyWrites l (l.log now call).2 := by
  have hfold : ∀ (r : LogRecord) (sinks : List LogSink) (l : Logging),
      OnlyWrites l (sinks.foldl (emit now r) l) := by
    intro r sinks
    induction sinks with
    | nil => exact OnlyWrites.refl
    | cons sink sinks ih => exact fun l => (onlyWrites_emit now r l sink).trans (ih _)
  obtain hl | ⟨r, hl⟩ := log_cases l now call
  · rw [hl]
    exact .refl l
  · rw [hl]
    exact hfold r l.sinks l

lemma textOf_addLine (line : String) {written : LogTarget} (target : LogTarget)
    (hopen : ∀ place, written = .file place → (l.tree.text? place).isSome) :
    (l.addLine line written).textOf target
      = l.textOf target ++ if target = written then line else "" := by
  cases hwritten : written with
  | console => cases target <;> simp [addLine, textOf]
  | file other =>
    cases target with
    | console => simp [addLine, textOf]
    | file place =>
      obtain ⟨text, htext⟩ := Option.isSome_iff_exists.1 (hopen other hwritten)
      by_cases hplace : place = other
      · simp [addLine, textOf, FileTree.text?_append, hplace, htext]
      · simp [addLine, textOf, FileTree.text?_append, hplace]

/-- What a line adds to a target: nothing if the target cannot write it. -/
def added (l : Logging) (line : String) (target : LogTarget) : String :=
  if line.toList.all (l.encodes target) then line else ""

lemma textOf_emit (now : Instant) (r : LogRecord) (f : LogFormat) {written : LogTarget}
    (target : LogTarget) (hopen : ∀ place, written = .file place → (l.tree.text? place).isSome) :
    (emit now r l ⟨written, f⟩).textOf target
      = l.textOf target
        ++ if target = written then l.added (f.line now r ++ "\n") target else "" := by
  unfold emit added
  dsimp only
  by_cases htarget : target = written
  · subst htarget
    rw [if_pos rfl]
    split
    · rw [textOf_addLine _ _ hopen, if_pos rfl]
    · exact String.append_empty.symm
  · rw [if_neg htarget]
    split
    · rw [textOf_addLine _ _ hopen, if_neg htarget]
    · exact String.append_empty.symm

/-- A record written to targets, none of them named twice, is at the end of each of them once that
can write it. -/
lemma textOf_foldl_emit (now : Instant) (r : LogRecord) (f : LogFormat) (target : LogTarget)
    {targets : List LogTarget} (hnodup : targets.Nodup)
    (hopen : ∀ place, .file place ∈ targets → (l.tree.text? place).isSome) :
    ((targets.map fun t => ⟨t, f⟩).foldl (emit now r) l).textOf target
      = l.textOf target
        ++ if target ∈ targets then l.added (f.line now r ++ "\n") target else "" := by
  induction targets generalizing l with
  | nil => simp
  | cons t targets ih =>
    obtain ⟨hnew, hnodup⟩ := List.nodup_cons.1 hnodup
    have hfirst : (emit now r l ⟨t, f⟩).textOf target = l.textOf target
        ++ if target = t then l.added (f.line now r ++ "\n") target else "" :=
      textOf_emit now r f target fun place hplace => hopen place (hplace ▸ List.mem_cons_self)
    have hsame : (emit now r l ⟨t, f⟩).added = l.added := by
      unfold added
      rw [encodes_emit]
    have hrest := ih (l := emit now r l ⟨t, f⟩) hnodup fun place hplace => by
      rw [(onlyWrites_emit now r l ⟨t, f⟩).files]
      exact hopen place (List.mem_cons_of_mem _ hplace)
    rw [List.map_cons, List.foldl_cons, hrest, hfirst, hsame]
    -- The first target is not among the others, so its line is not written again.
    by_cases htarget : target = t
    · simp [htarget, hnew]
    · simp [htarget]

lemma record?_keeps (h : call.record? = .ok (some r)) :
    r.logger = call.logger ∧ r.level = call.level := by
  unfold LogCall.record? at h
  cases hattached : call.attachments with
  | error fault => rw [hattached] at h; cases h
  | ok attached =>
    rw [hattached] at h
    dsimp [Bind.bind, Except.bind] at h
    split at h
    · cases h
    · cases h; exact ⟨rfl, rfl⟩

/-- A record is written if it is one of the wallet's and not below the level. -/
lemma log_of_record (hlevel : l.level = some s.level) (hrecord : call.record? = .ok (some r)) :
    (l.log now call).2
      = if covers r.logger = true ∧ s.admits r = true then l.write now r else l := by
  obtain ⟨hlogger, hrank⟩ := record?_keeps hrecord
  unfold log
  rw [hrecord, ← hlogger, ← hrank]
  dsimp only
  by_cases hcovers : covers r.logger = true
  · have hthreshold : l.threshold r.logger = s.level := by
      rw [threshold, if_pos hcovers, hlevel]
      rfl
    rw [hthreshold, if_pos hcovers]
    by_cases hadmits : s.admits r = true
    · have hle : s.level.rank ≤ r.level.rank := of_decide_eq_true hadmits
      rw [if_neg (Nat.not_lt.2 hle), if_pos ⟨hcovers, hadmits⟩]
    · have hnle : ¬ s.level.rank ≤ r.level.rank := fun hle => hadmits (decide_eq_true hle)
      rw [if_pos (Nat.not_le.1 hnle), if_neg fun h => hadmits h.2]
  · have hnot : ¬ (covers r.logger = true ∧ s.admits r = true) := fun h => hcovers h.1
    rw [if_neg hcovers, if_neg hnot]
    split <;> rfl

lemma log_of_no_record (hrecord : ∀ r, call.record? ≠ .ok (some r)) : (l.log now call).2 = l := by
  unfold log
  split
  · rfl
  · split
    · rfl
    · rfl
    · next r h => exact absurd h (hrecord r)

/-- With settings in force, a call leaves just its lines. -/
lemma textOf_log (hlevel : l.level = some s.level) (hsinks : l.sinks = s.sinks env)
    (hopen : ∀ place, .file place ∈ s.targets env → (l.tree.text? place).isSome) :
    (l.log now call).2.textOf target
      = l.textOf target ++ String.join (s.linesOf l.encodes env target now call) := by
  unfold LogSettings.linesOf
  split
  · next r hrecord =>
    rw [log_of_record hlevel hrecord]
    by_cases hmade : covers r.logger = true ∧ s.admits r = true
    · have hwrite := textOf_foldl_emit now r s.format target (LogSettings.nodup_targets env s) hopen
      rw [if_pos hmade, write, hsinks]
      refine hwrite.trans (congrArg (l.textOf target ++ ·) ?_)
      change (if target ∈ s.targets env then l.added (s.line now r) target else "") = _
      by_cases htarget : target ∈ s.targets env
      · rw [if_pos htarget]
        by_cases hfits : (s.line now r).toList.all (l.encodes target) = true
        · rw [added, if_pos hfits, if_pos ⟨hmade.1, hmade.2, htarget, hfits⟩]
          simp
        · rw [added, if_neg hfits, if_neg fun h => hfits h.2.2.2]
          rfl
      · rw [if_neg htarget, if_neg fun h => htarget h.2.2.1]
        rfl
    · have hnot : ¬ (covers r.logger = true ∧ s.admits r = true ∧ target ∈ s.targets env ∧
          (s.line now r).toList.all (l.encodes target) = true) := fun h => hmade ⟨h.1, h.2.1⟩
      rw [if_neg hmade, if_neg hnot]
      simp
  · next hnone =>
    rw [log_of_no_record fun r hrecord => hnone r hrecord]
    simp

/-! ### Setups that succeed -/

/-- What a setup that succeeds makes of logging. -/
structure SetUp (env : Environment) (s : LogSettings) (before after : Logging) : Prop where
  level : after.level = some s.level
  sinks : after.sinks = s.sinks env
  ready : after.ready = true
  console : after.console = before.console
  encodes : after.encodes = before.encodes
  /-- The file of the settings is made if it was not there. -/
  files : ∀ place, after.tree.text? place =
    if s.place? env = some place then some ((before.tree.text? place).getD "")
    else before.tree.text? place

lemma setUp_of_apply (h : l.apply env s = (.ok (), l')) : SetUp env s l l' := by
  unfold apply at h
  split at h
  · next hfile =>
    split at h
    · cases h
    · next place tree hopen =>
      obtain ⟨folder, hfolder, hplace, htext⟩ := openFile_spec hopen
      have hasked : s.place? env = some place := by
        rw [LogSettings.place?, if_pos hfile, hfolder, hplace]
        rfl
      cases h
      exact {
        level := rfl
        sinks := (LogSettings.sinks_eq hasked).symm
        ready := rfl
        console := rfl
        encodes := rfl
        files := fun other => by rw [hasked, htext]; simp [eq_comm] }
  · next hfile =>
    have hasked : s.place? env = none := if_neg hfile
    cases h
    exact {
      level := rfl
      sinks := (LogSettings.sinks_eq hasked).symm
      ready := rfl
      console := rfl
      encodes := rfl
      files := fun other => by rw [hasked]; rfl }

lemma SetUp.textOf_eq (h : SetUp env s l l') (target : LogTarget) :
    l'.textOf target = l.textOf target := by
  cases target with
  | console => exact h.console
  | file place =>
    show (l'.tree.text? place).getD "" = (l.tree.text? place).getD ""
    rw [h.files place]
    split <;> rfl

/-! ### Steps and runs -/

lemma isAfter_nil (tree : FileTree) (console : String) (encodes : LogTarget → Char → Bool) :
    IsAfter { tree, console, encodes } [] { tree, console, encodes } where
  level := rfl
  sinks := rfl
  ready := rfl
  encodes := rfl
  text := fun target => String.append_empty.symm
  files := by simp [WasTarget, inForce]
  ignored := fun h => by cases h

lemma wasTarget_cons {x : LogStep} {place : PathParts} : WasTarget place (x :: past) ↔
    (∃ env s, inForce (x :: past) = some (env, s) ∧ s.place? env = some place)
      ∨ WasTarget place past := by
  constructor
  · rintro ⟨older, env, s, hsuffix, hasked⟩
    obtain rfl | hsuffix := List.suffix_cons_iff.1 hsuffix
    · exact Or.inl ⟨env, s, hasked⟩
    · exact Or.inr ⟨older, env, s, hsuffix, hasked⟩
  · rintro (⟨env, s, hasked⟩ | ⟨older, env, s, hsuffix, hasked⟩)
    · exact ⟨x :: past, env, s, List.suffix_rfl, hasked⟩
    · exact ⟨older, env, s, hsuffix.trans (List.suffix_cons x past), hasked⟩

lemma wasTarget_cons_of_same {x : LogStep} {place : PathParts}
    (h : inForce (x :: past) = inForce past) :
    WasTarget place (x :: past) ↔ WasTarget place past := by
  rw [wasTarget_cons, h]
  exact or_iff_right_of_imp fun ⟨env, s, hasked⟩ => ⟨past, env, s, List.suffix_rfl, hasked⟩

lemma ignored_of_ready (h : l.ready = true) (env : Environment) (given : Option LogSettings) :
    l.setup env given false = (.ok (), l) :=
  setup_ignored (by rw [h]; rfl)

/-- The file of the settings in force is there. -/
lemma IsAfter.isSome_text? (h : IsAfter start past l) (hforce : inForce past = some (env, s))
    (place : PathParts) (hplace : .file place ∈ s.targets env) :
    (l.tree.text? place).isSome :=
  (h.files place).2 (Or.inr
    ⟨past, env, s, List.suffix_rfl, hforce, LogSettings.file_mem_targets.1 hplace⟩)

lemma IsAfter.record (h : IsAfter start past l) (now : Instant) (call : LogCall) :
    IsAfter start (.record now call :: past) (l.log now call).2 := by
  have hkeep := onlyWrites_log l now call
  exact {
    level := hkeep.level.trans h.level
    sinks := hkeep.sinks.trans h.sinks
    ready := hkeep.ready.trans h.ready
    encodes := hkeep.encodes.trans h.encodes
    text := by
      intro target
      cases hforce : inForce past with
      | none =>
        have hnil : l.sinks = [] := by rw [h.sinks, hforce]; rfl
        rw [log_of_sinks_nil hnil, linesTo, hforce, List.append_nil]
        exact h.text target
      | some f =>
        obtain ⟨env, s⟩ := f
        have hlevel : l.level = some s.level := by rw [h.level, hforce]; rfl
        have hsinks : l.sinks = s.sinks env := by rw [h.sinks, hforce]; rfl
        rw [textOf_log hlevel hsinks (h.isSome_text? hforce), h.text target, linesTo, hforce,
          String.join_append, String.append_assoc, h.encodes]
    files := fun place => by
      rw [hkeep.files place, h.files place, wasTarget_cons_of_same rfl]
    ignored := fun hany => ignored_of_ready ((hkeep.ready.trans h.ready).trans hany) }

/-- A setup that is passed over leaves the settings in force. -/
lemma IsAfter.setup_ignored (h : IsAfter start past l) (hset : past.any isSetup = true) :
    IsAfter start (.setup env given false :: past) l := by
  have hsame : inForce (.setup env given false :: past) = inForce past := by
    rw [inForce, hset]
    rfl
  exact {
    level := by rw [hsame]; exact h.level
    sinks := by rw [hsame]; exact h.sinks
    ready := h.ready.trans hset
    encodes := h.encodes
    text := h.text
    files := fun place => by rw [h.files place, wasTarget_cons_of_same hsame]
    ignored := fun _ => h.ignored hset }

/-- Any other setup brings its own settings. -/
lemma IsAfter.setup_applied (h : IsAfter start past l)
    (hcounts : (force || !past.any isSetup) = true)
    (hchosen : LogSettings.chosen env given = .ok s) (hset : SetUp env s l l') :
    IsAfter start (.setup env given force :: past) l' := by
  have hnow : inForce (.setup env given force :: past) = some (env, s) := by
    rw [inForce, hcounts, hchosen]
    rfl
  exact {
    level := by rw [hset.level, hnow]; rfl
    sinks := by rw [hset.sinks, hnow]; rfl
    ready := hset.ready
    encodes := hset.encodes.trans h.encodes
    text := fun target => (hset.textOf_eq target).trans (h.text target)
    -- No text changes, but the file of the new settings is there from now on.
    files := by
      intro place
      rw [wasTarget_cons, hnow, hset.files place, or_left_comm, ← h.files place]
      by_cases hplace : s.place? env = some place
      · rw [if_pos hplace]
        exact iff_of_true rfl (Or.inl ⟨env, s, rfl, hplace⟩)
      · rw [if_neg hplace]
        refine (or_iff_right ?_).symm
        rintro ⟨env', s', hsame, hasked⟩
        cases hsame
        exact hplace hasked
    ignored := fun _ => ignored_of_ready hset.ready }

lemma IsAfter.setup (h : IsAfter start past l) (hok : (l.setup env given force).1 = .ok ()) :
    IsAfter start (.setup env given force :: past) (l.setup env given force).2 := by
  cases hready : (l.ready && !force) with
  | true =>
    obtain ⟨hset, rfl⟩ : past.any isSetup = true ∧ force = false := by
      simpa [h.ready] using hready
    rw [Logging.setup_ignored hready]
    exact h.setup_ignored hset
  | false =>
    have hcounts : (force || !past.any isSetup) = true := by
      rw [← h.ready]
      cases force <;> simp_all
    rw [setup_eq hready] at hok ⊢
    cases hchosen : LogSettings.chosen env given with
    | error fault => rw [hchosen] at hok; cases hok
    | ok s =>
      rw [hchosen] at hok
      exact h.setup_applied hcounts hchosen (setUp_of_apply (Prod.ext hok rfl))

lemma IsAfter.run (h : IsAfter start past l) {steps : List LogStep} (hok : l.SetupsSucceed steps) :
    IsAfter start (steps.reverse ++ past) (l.run steps) := by
  induction steps generalizing past l with
  | nil => exact h
  | cons x steps ih =>
    have hstep : IsAfter start (x :: past) (l.step x).2 := by
      cases x with
      | setup env given force => exact h.setup (hok.1 rfl)
      | record now call => exact h.record now call
    rw [List.reverse_cons, List.append_assoc]
    exact ih hstep hok.2

/-- A record that a part of the wallet makes. -/
def noteStep (level : LogLevel) (text : String) : LogStep :=
  .record ⟨1700000000, 0⟩ { logger := "arena_wallet.x", level, template := text }

/-- Files can write every character, and the console only the first 128. -/
def plainConsole : LogTarget → Char → Bool
  | .file _, _ => true
  | .console, c => c.toNat < 128

/-- A log file is used, a setup is passed over, and another file and the console are forced. -/
def movedSteps : List LogStep := [
  .setup [] (some (settingsIn "a")) false,
  noteStep .info "one",
  .setup [] (some (settingsIn "c")) false,
  noteStep .info "two",
  .setup [] (some { settingsIn "b" with level := .warning, toConsole := true }) true,
  noteStep .info "three",
  noteStep .error "four",
  noteStep .error "fünf"]

/-- A log file with a line in it. -/
def oldFiles : FileTree :=
  [(["a".toList], .folder), (["a".toList, "wallet.log".toList], .file "zero\n")]

end Logging

end StellarWallet
