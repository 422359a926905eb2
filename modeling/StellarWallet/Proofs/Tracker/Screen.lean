import StellarWallet.Proofs.Tracker.Toasts
import StellarWallet.Proofs.Tracker.Writes

/-!
What is on show over a run.

The moments of a run are those between its steps and those within them. Each step lets what is on
show go on properly, whatever becomes of the history; so does every run. Between two steps a toast
is the entry of its call, and once the call has ended, the last record that the call has made.
-/

namespace StellarWallet

open TrackerAct Moment

namespace TrackerRun

/-- The identifiers of the calls that have been started, the oldest first. -/
def started (r : TrackerRun) : List String := r.calls.map (·.entry.id)

/-- The identifiers of the calls that have ended. -/
def finished (r : TrackerRun) : List String := (r.calls.filter (·.isEnded)).map (·.entry.id)

def moment (r : TrackerRun) : Moment := ⟨r.started, r.finished, r.tracker.toasts⟩

/-- The moments within a step. -/
def within (r : TrackerRun) (s : TrackerStep) : List Moment :=
  (r.tracker.during (r.actsOf s)).map fun t => ⟨(r.step s).started, r.finished, t.toasts⟩

/-- The moments of a run: those between its steps and those within them. -/
def moments (r : TrackerRun) : List TrackerStep → List Moment
  | [] => [r.moment]
  | s :: ss => r.moment :: (r.within s ++ (r.step s).moments ss)

/-! ### One step -/

variable {r : TrackerRun} {s : TrackerStep}

/-- A call that has its place taken by one of the same identifier. -/
lemma started_of_set {r' : TrackerRun} {i : Nat} {c c' : Call} (hi : r.calls[i]? = some c)
    (hcalls : r'.calls = r.calls.set i c') (hid : c'.entry.id = c.entry.id) :
    r'.started = r.started := by
  rw [started, hcalls, List.map_set, hid, started]
  refine List.ext_getElem? fun j => ?_
  by_cases hij : i = j
  · subst hij
    have hlt : i < (r.calls.map (·.entry.id)).length := by
      rw [List.length_map]
      exact (List.getElem?_eq_some_iff.1 hi).1
    rw [List.getElem?_set_self hlt, List.getElem?_map, hi, Option.map_some]
  · rw [List.getElem?_set_ne hij]

/-- What a coherent call that has not ended does suits it. -/
lemma suits_turnOf (hc : ∀ c ∈ r.calls, c.Coherent) {i : Nat} {c : Call} (own : CallStep)
    (hi : r.calls[i]? = some c) (he : c.isEnded = false) : (r.turnOf c own).Suits c :=
  Call.suits_turn r.tracker.history r.tracker.links own (hc c (List.mem_of_getElem? hi)) he

/-- Calls stay coherent, and are kept in the order of their starts. -/
lemma coherent_step (hc : ∀ c ∈ r.calls, c.Coherent) (s : TrackerStep) :
    (∀ c ∈ (r.step s).calls, c.Coherent) ∧ r.started.Sublist (r.step s).started := by
  cases ht : s.target with
  | some p =>
    obtain ⟨i, own⟩ := p
    rcases step_call_cases (r := r) ht with ⟨hsame, -, -⟩ | ⟨c, hi, he⟩
    · rw [hsame]
      exact ⟨hc, List.Sublist.refl _⟩
    · obtain ⟨hstep, -⟩ := step_of_call ht hi
      have hsuits := suits_turnOf hc own hi he
      have hcalls : (r.step s).calls = r.calls.set i (r.turnOf c own).call := by rw [hstep]
      rw [started_of_set hi hcalls hsuits.id]
      refine ⟨fun x hx => ?_, List.Sublist.refl _⟩
      rw [hcalls] at hx
      rcases List.mem_or_eq_of_mem_set hx with hx | rfl
      · exact hc x hx
      · exact hsuits.coherent
  | none =>
    have hcalls := calls_step_of_noTarget (r := r) ht
    rw [started, started, hcalls]
    refine ⟨fun x hx => ?_, (List.sublist_append_left _ _).map _⟩
    rcases List.mem_append.1 hx with hx | hx
    · exact hc x hx
    · cases s with
      | start info =>
        rw [List.mem_singleton.1 hx]
        exact Call.coherent_pending info _ _
      | _ => cases hx

/-- What stays true of a run as long as identifiers do not repeat. -/
structure Shows (r : TrackerRun) : Prop where
  coherent : ∀ c ∈ r.calls, c.Coherent
  current : ∀ x ∈ r.tracker.toasts, ∃ c ∈ r.calls, x.entry = c.entry
  limit : 0 ≤ r.tracker.maxToasts
  inOrder : r.moment.InOrder r.tracker.maxToasts

/-- What is on show goes on properly over a step. -/
structure GoesOn (r : TrackerRun) (s : TrackerStep) : Prop where
  shows : (r.step s).Shows
  chain : (r.moment :: (r.within s ++ [(r.step s).moment])).IsChain Precedes
  inOrder : ∀ m ∈ r.within s, m.InOrder r.tracker.maxToasts

lemma maxToasts_step (r : TrackerRun) (s : TrackerStep) :
    (r.step s).tracker.maxToasts = r.tracker.maxToasts := by
  rw [step_tracker, Tracker.acts_maxToasts]

lemma within_eq (r : TrackerRun) (s : TrackerStep) :
    r.within s = momentsOf (r.step s).started r.finished r.tracker (r.actsOf s) := rfl

/-- A moment that shows less. -/
lemma inOrder_of_sublist {m m' : Moment} {limit : Int} (h : m.InOrder limit)
    (hs : m'.started = m.started) (hi : m'.shownIds.Sublist m.shownIds) : m'.InOrder limit where
  length := by
    have hlen := hi.length_le
    rw [shownIds, shownIds, List.length_map, List.length_map] at hlen
    have := h.length
    omega
  distinct := hi.nodup h.distinct
  newestFirst := hs ▸ hi.trans h.newestFirst

/-- A step that starts nothing shows nothing new, so all that is left to see is what it does to the
toasts that are there. -/
lemma goesOn_of_started (h : r.Shows) (hstarted : (r.step s).started = r.started)
    (hids : ∀ a ∈ r.actsOf s, ∀ t : Tracker, (t.act a).shownIds.Sublist t.shownIds)
    (hcurrent : ∀ x ∈ (r.tracker.acts (r.actsOf s)).toasts, ∃ c ∈ (r.step s).calls,
      x.entry = c.entry)
    (hchain : (⟨r.started, r.finished, r.tracker.toasts⟩ ::
      (momentsOf r.started r.finished r.tracker (r.actsOf s)
        ++ [⟨r.started, (r.step s).finished, (r.tracker.acts (r.actsOf s)).toasts⟩])).IsChain
      Precedes) : r.GoesOn s := by
  obtain ⟨hend, hbetween⟩ := sublist_during (t := r.tracker) Tracker.shownIds hids
  refine ⟨⟨(coherent_step h.coherent s).1, ?_, ?_, ?_⟩, ?_, ?_⟩
  · rwa [step_tracker]
  · rw [maxToasts_step]
    exact h.limit
  · rw [maxToasts_step]
    refine inOrder_of_sublist h.inOrder hstarted ?_
    rw [moment, step_tracker]
    exact hend
  · rw [within_eq, hstarted, moment, moment, hstarted, step_tracker]
    exact hchain
  · intro m hm
    obtain ⟨t', ht', rfl⟩ := List.mem_map.1 hm
    exact inOrder_of_sublist h.inOrder hstarted (hbetween t' ht')

/-- A step that starts nothing and only takes toasts away. -/
lemma goesOn_of_sublists (h : r.Shows) (hcalls : (r.step s).calls = r.calls)
    (hacts : ∀ a ∈ r.actsOf s, ∀ t : Tracker, (t.act a).toasts.Sublist t.toasts) :
    r.GoesOn s := by
  have hstarted : (r.step s).started = r.started := by rw [started, hcalls, started]
  have hfinished : (r.step s).finished = r.finished := by rw [finished, hcalls, finished]
  have hids : ∀ a ∈ r.actsOf s, ∀ t : Tracker, (t.act a).shownIds.Sublist t.shownIds :=
    fun a ha t => (hacts a ha t).map _
  refine goesOn_of_started h hstarted hids ?_ (chain_of_sublists hacts ?_)
  · intro x hx
    rw [hcalls]
    exact h.current x ((sublist_during Tracker.toasts hacts).1.subset hx)
  · rw [hfinished]
    exact fun _ h => h

lemma goesOn_of_act (h : r.Shows) (hcalls : (r.step s).calls = r.calls) {a : TrackerAct}
    (ha : r.actsOf s = [a]) (hsub : ∀ t : Tracker, (t.act a).toasts.Sublist t.toasts) :
    r.GoesOn s := by
  refine goesOn_of_sublists h hcalls fun b hb t => ?_
  rw [ha, List.mem_singleton] at hb
  rw [hb]
  exact hsub t

/-- Calls are known by their identifiers. -/
lemma eq_of_id_eq (hids : r.started.Nodup) {c c' : Call} (hc : c ∈ r.calls) (hc' : c' ∈ r.calls)
    (he : c.entry.id = c'.entry.id) : c = c' :=
  List.inj_on_of_nodup_map hids hc hc' he

lemma id_notMem_finished (hids : r.started.Nodup) {c : Call} (hc : c ∈ r.calls)
    (he : c.isEnded = false) : c.entry.id ∉ r.finished := by
  intro hmem
  obtain ⟨c', hc', hid⟩ := List.mem_map.1 hmem
  obtain ⟨hmem', hend⟩ := List.mem_filter.1 hc'
  rw [eq_of_id_eq hids hmem' hc hid, he] at hend
  cases hend

/-- When one call has its place taken, the others stay. -/
lemma mem_set_of_ne {i : Nat} {c c' x : Call} (hi : r.calls[i]? = some c) (hx : x ∈ r.calls)
    (hxc : x ≠ c) : x ∈ r.calls.set i c' := by
  obtain ⟨j, hj⟩ := List.mem_iff_getElem?.1 hx
  have hij : i ≠ j := by
    rintro rfl
    rw [hi, Option.some.injEq] at hj
    exact hxc hj.symm
  refine List.mem_of_getElem? (i := j) ?_
  rwa [List.getElem?_set_ne hij]

lemma finished_subset_of_set {r' : TrackerRun} {i : Nat} {c c' : Call}
    (hi : r.calls[i]? = some c) (hcalls : r'.calls = r.calls.set i c')
    (he : c.isEnded = false) : r.finished ⊆ r'.finished := by
  intro id hid
  obtain ⟨x, hx, rfl⟩ := List.mem_map.1 hid
  obtain ⟨hmem, hend⟩ := List.mem_filter.1 hx
  have hne : x ≠ c := by
    rintro rfl
    rw [he] at hend
    cases hend
  refine List.mem_map.2 ⟨x, List.mem_filter.2 ⟨?_, hend⟩, rfl⟩
  rw [hcalls]
  exact mem_set_of_ne hi hmem hne

/-- A step of a call that has not ended. -/
lemma goesOn_call (h : r.Shows) (hids : r.started.Nodup) {i : Nat} {own : CallStep} {c : Call}
    (ht : s.target = some (i, own)) (hi : r.calls[i]? = some c) (he : c.isEnded = false) :
    r.GoesOn s := by
  obtain ⟨hstep, hacts⟩ := step_of_call ht hi
  have hmem : c ∈ r.calls := List.mem_of_getElem? hi
  have hsuits := suits_turnOf h.coherent own hi he
  generalize r.turnOf c own = turn at hstep hacts hsuits
  have hcalls : (r.step s).calls = r.calls.set i turn.call := by rw [hstep]
  have hlt : i < r.calls.length := (List.getElem?_eq_some_iff.1 hi).1
  have hset : turn.call ∈ (r.step s).calls := by
    rw [hcalls]
    exact List.mem_set hlt _
  have hx : ∀ x ∈ r.tracker.toasts, x.entry.id = c.entry.id → x.entry = c.entry := by
    intro x hx hid
    obtain ⟨c', hc', hxc⟩ := h.current x hx
    rw [hxc, eq_of_id_eq hids hc' hmem (hxc ▸ hid)]
  have hnew := id_notMem_finished hids hmem he
  refine goesOn_of_started h (started_of_set hi hcalls hsuits.id) ?_ ?_ ?_
  · intro a ha t
    rw [hacts] at ha
    rw [shownIds_act_of_plays hsuits.plays a ha t]
  · intro x hxt
    rw [hacts] at hxt
    rcases mem_toasts_of_plays hsuits.plays hx hxt with ⟨-, hshown⟩ | ⟨hid, hold⟩
    · exact ⟨turn.call, hset, hshown.trans hsuits.shown⟩
    · obtain ⟨c', hc', hxc⟩ := h.current x hold
      refine ⟨c', ?_, hxc⟩
      rw [hcalls]
      refine mem_set_of_ne hi hc' ?_
      rintro rfl
      exact hid (congrArg _ hxc)
  · rw [hacts]
    exact chain_of_plays hsuits.plays hnew hx (finished_subset_of_set hi hcalls he)

/-- A step that starts a call. -/
lemma goesOn_start (h : r.Shows) (info : TxMeta)
    (hids : (r.step (.start info)).started.Nodup) : r.GoesOn (.start info) := by
  have hcalls : (r.step (.start info)).calls
      = r.calls ++ [Call.pending info r.nextId r.timestamp] := rfl
  have hstarted : (r.step (.start info)).started = r.started ++ [r.nextId] := by
    rw [started, hcalls, List.map_append]
    rfl
  have hfinished : (r.step (.start info)).finished = r.finished := by
    rw [finished, hcalls, List.filter_append, List.map_append]
    exact List.append_nil _
  have htoasts : (r.step (.start info)).tracker.toasts = atMost r.tracker.maxToasts
      (info.toast r.nextId r.timestamp :: r.tracker.toasts) := Tracker.present_toasts _ _
  have hwithin : r.within (.start info) = [(r.step (.start info)).moment] := by
    rw [moment, hfinished]
    rfl
  have hsub := atMost_sublist r.tracker.maxToasts
    (info.toast r.nextId r.timestamp :: r.tracker.toasts)
  rw [← htoasts] at hsub
  have hnewest : (r.step (.start info)).moment.shownIds.Sublist
      (r.step (.start info)).started.reverse := by
    refine (hsub.map (·.entry.id)).trans ?_
    rw [hstarted, List.reverse_append]
    exact h.inOrder.newestFirst.cons_cons _
  have hinOrder : (r.step (.start info)).moment.InOrder r.tracker.maxToasts := by
    refine ⟨?_, hnewest.nodup (List.nodup_reverse.2 hids), hnewest⟩
    rw [moment, htoasts]
    exact length_atMost_le h.limit _
  have hprecedes : r.moment.Precedes (r.step (.start info)).moment := by
    refine precedes_of_subset ?_ ?_ fun x hx hold => ?_
    · rw [moment, moment, hstarted]
      exact List.subset_append_left _ _
    · rw [moment, moment, hfinished]
      exact fun _ h => h
    · rcases List.mem_cons.1 (hsub.subset hx) with rfl | hx
      · rw [hstarted] at hids
        exact absurd rfl (List.nodup_append.1 hids |>.2.2 _ hold _ (List.mem_singleton_self _))
      · exact hx
  refine ⟨⟨(coherent_step h.coherent _).1, ?_, ?_, ?_⟩, ?_, ?_⟩
  · intro x hx
    rw [hcalls]
    rcases List.mem_cons.1 (hsub.subset hx) with rfl | hx
    · exact ⟨_, List.mem_append_right _ (List.mem_singleton_self _), rfl⟩
    · obtain ⟨c, hc, hxc⟩ := h.current x hx
      exact ⟨c, List.mem_append_left _ hc, hxc⟩
  · rw [maxToasts_step]
    exact h.limit
  · rw [maxToasts_step]
    exact hinOrder
  · rw [hwithin]
    refine .cons_cons hprecedes (.cons_cons ?_ (.singleton _))
    exact precedes_of_subset (fun _ h => h) (fun _ h => h) fun _ h _ => h
  · rw [hwithin]
    intro m hm
    rw [List.mem_singleton.1 hm]
    exact hinOrder

/-- What is on show goes on properly over any step, as long as identifiers do not repeat. -/
theorem goesOn (h : r.Shows) (hids : r.started.Nodup) (hids' : (r.step s).started.Nodup) :
    r.GoesOn s := by
  cases ht : s.target with
  | some p =>
    obtain ⟨i, own⟩ := p
    rcases step_call_cases (r := r) ht with ⟨hsame, hacts, -⟩ | ⟨c, hi, he⟩
    · exact goesOn_of_sublists h (by rw [hsame]) (by simp [hacts])
    · exact goesOn_call h hids ht hi he
  | none =>
    cases s with
    | start info => exact goesOn_start h info hids'
    | dismiss id =>
      refine goesOn_of_act h rfl (a := .dismiss id) rfl fun t => ?_
      rw [Tracker.act, Tracker.dismiss_toasts]
      exact List.filter_sublist
    | append draft =>
      refine goesOn_of_act h rfl (a := .commit _) rfl fun t => ?_
      rw [Tracker.act, Tracker.commit_toasts]
    | clear =>
      refine goesOn_of_act h rfl (a := .clear) rfl fun t => ?_
      rw [Tracker.act, Tracker.clear_toasts]
    | subscribe listener => exact goesOn_of_act h rfl rfl fun _ => List.Sublist.refl _
    | unsubscribe key => exact goesOn_of_act h rfl rfl fun _ => List.Sublist.refl _
    | refuseWrites fault => exact goesOn_of_act h rfl rfl fun _ => List.Sublist.refl _
    | setClock now => exact goesOn_of_sublists h rfl (by simp [actsOf])
    | setPhase call phase => cases ht
    | finishWork call ending => cases ht
    | finishConfirmation call ending => cases ht

/-- The last record of a call over one step. -/
lemma getLast?_recordsOf_step (hc : ∀ c ∈ r.calls, c.Coherent) (s : TrackerStep) (i : Nat) :
    (recordsOf i (r.writesOf s)).getLast?.or (r.outcomeOf i).getLast?
      = ((r.step s).outcomeOf i).getLast? := by
  cases ht : s.target with
  | none => rw [recordsOf_writesOf_of_ne (by simp [ht]), outcomeOf_step_other ht]; rfl
  | some p =>
    obtain ⟨j, own⟩ := p
    rcases step_call_cases (r := r) ht with ⟨hsame, hacts, -⟩ | ⟨c, hj, he⟩
    · rw [hsame, writesOf, hacts]
      rfl
    · obtain ⟨hstep, hacts⟩ := step_of_call ht hj
      have hcalls : (r.step s).calls = r.calls.set j (r.turnOf c own).call := by rw [hstep]
      by_cases hij : j = i
      · subst hij
        rw [recordsOf_writesOf ht, hacts, (suits_turnOf hc own hj he).records,
          outcomeOf_of_getElem? hj, outcomeOf_of_getElem? (getElem?_step_of_call ht hj), he]
        cases (r.turnOf c own).call.isEnded <;> rfl
      · have hne : s.target.map (·.1) ≠ some i := by
          rw [ht]
          exact fun h => hij (Option.some.inj h)
        rw [recordsOf_writesOf_of_ne hne, outcomeOf, outcomeOf, hcalls,
          List.getElem?_set_ne hij]
        rfl

/-! ### All steps -/

variable {r₀ : TrackerRun} {ss : List TrackerStep}

lemma coherent_steps (hc : ∀ c ∈ r.calls, c.Coherent) (ss : List TrackerStep) :
    (∀ c ∈ (r.steps ss).calls, c.Coherent) ∧ r.started.Sublist (r.steps ss).started := by
  induction ss generalizing r with
  | nil => exact ⟨hc, List.Sublist.refl _⟩
  | cons s ss ih =>
    obtain ⟨hc', hsub⟩ := coherent_step hc s
    obtain ⟨hend, hsub'⟩ := ih hc'
    exact ⟨hend, hsub.trans hsub'⟩

/-- The last record of a call that has ended is the entry that it was left with. -/
lemma getLast?_recordsOf (hcalls : r₀.calls = []) (ss : List TrackerStep) (i : Nat) :
    (recordsOf i (r₀.writes ss)).getLast? = ((r₀.steps ss).outcomeOf i).getLast? := by
  have hc : ∀ c ∈ r₀.calls, c.Coherent := by simp [hcalls]
  induction ss using List.reverseRecOn with
  | nil => rw [outcomeOf_of_missing (by simp [steps, hcalls])]; rfl
  | append_singleton ss s ih =>
    rw [writes_append, steps_append, recordsOf, List.filterMap_append, List.getLast?_append]
    rw [recordsOf] at ih
    rw [ih]
    exact getLast?_recordsOf_step (coherent_steps hc ss).1 s i

lemma exists_moments_eq (r : TrackerRun) (ss : List TrackerStep) :
    ∃ rest, r.moments ss = r.moment :: rest := by
  cases ss with
  | nil => exact ⟨_, rfl⟩
  | cons s ss => exact ⟨_, rfl⟩

/-- What is on show goes on properly over any run. -/
lemma moments_goOn (h : r.Shows) (hids : (r.steps ss).started.Nodup) :
    (r.steps ss).Shows ∧ (r.moments ss).IsChain Precedes ∧
      ∀ m ∈ r.moments ss, m.InOrder r.tracker.maxToasts := by
  induction ss generalizing r with
  | nil =>
    refine ⟨h, .singleton _, ?_⟩
    intro m hm
    rw [List.mem_singleton.1 hm]
    exact h.inOrder
  | cons s ss ih =>
    obtain ⟨hc, hsub⟩ := coherent_step h.coherent s
    have hids' := (coherent_steps hc ss).2.nodup hids
    have hstep := goesOn h (hsub.nodup hids') hids'
    obtain ⟨hend, hchain, hinOrder⟩ := ih hstep.shows hids
    obtain ⟨rest, hrest⟩ := exists_moments_eq (r.step s) ss
    refine ⟨hend, ?_, ?_⟩
    · rw [moments, hrest]
      rw [hrest] at hchain
      exact List.isChain_cons_split.2 ⟨hstep.chain, hchain⟩
    · intro m hm
      rcases List.mem_cons.1 hm with rfl | hm
      · exact h.inOrder
      · rcases List.mem_append.1 hm with hm | hm
        · exact hstep.inOrder m hm
        · exact maxToasts_step r s ▸ hinOrder m hm

/-- The toasts on show after a step: a new one pushes the oldest out, and only a dismissal takes one
away. -/
def shownAfter (r : TrackerRun) : TrackerStep → List String
  | .start _ => atMost r.tracker.maxToasts (r.nextId :: r.tracker.shownIds)
  | .dismiss id => r.tracker.shownIds.filter (· ≠ id)
  | _ => r.tracker.shownIds

lemma shownIds_step (hc : ∀ c ∈ r.calls, c.Coherent) (s : TrackerStep) :
    (r.step s).tracker.shownIds = r.shownAfter s := by
  rw [step_tracker]
  cases ht : s.target with
  | some p =>
    obtain ⟨i, own⟩ := p
    have hsame : r.shownAfter s = r.tracker.shownIds := by
      cases s with
      | start info => cases ht
      | dismiss id => cases ht
      | _ => rfl
    rw [hsame]
    rcases step_call_cases (r := r) ht with ⟨-, hacts, -⟩ | ⟨c, hi, he⟩
    · rw [hacts]
      rfl
    · rw [(step_of_call ht hi).2]
      exact shownIds_acts (shownIds_act_of_plays (suits_turnOf hc own hi he).plays)
  | none =>
    cases s with
    | start info =>
      have htoasts := r.tracker.present_toasts (info.toast r.nextId r.timestamp)
      rw [shownAfter, Tracker.shownIds, Tracker.shownIds]
      exact (congrArg _ htoasts).trans (map_atMost _ _ _)
    | dismiss id =>
      have htoasts := r.tracker.dismiss_toasts id
      rw [shownAfter, Tracker.shownIds, Tracker.shownIds, List.filter_map]
      exact congrArg _ htoasts
    | append draft => exact congrArg (List.map (·.entry.id)) (Tracker.commit_toasts _ _)
    | clear => exact congrArg (List.map (·.entry.id)) (Tracker.clear_toasts _)
    | setPhase call phase => cases ht
    | finishWork call ending => cases ht
    | finishConfirmation call ending => cases ht
    | _ => rfl

/-- **The toasts stay in order.** At every moment of a run of calls with distinct identifiers, the
toasts on show are not too many, of different calls, and the latest start comes first; at any later
moment none of them has come back, none is in an earlier phase, and none has changed whose call had
ended. Each step shows the toasts it should. Between steps a toast is the entry of its call, pending
exactly until the call ends, and from then on the last record that the call has made in the list in
memory. -/
theorem toasts_in_order (r₀ : TrackerRun) (hcalls : r₀.calls = [])
    (htoasts : r₀.tracker.toasts = []) (hlimit : 0 ≤ r₀.tracker.maxToasts) (ss : List TrackerStep)
    (hids : (r₀.steps ss).started.Nodup) :
    (∀ m ∈ r₀.moments ss, m.InOrder r₀.tracker.maxToasts) ∧
    (r₀.moments ss).Pairwise Precedes ∧
    (∀ s, ((r₀.steps ss).step s).tracker.shownIds = (r₀.steps ss).shownAfter s) ∧
    (∀ x ∈ (r₀.steps ss).tracker.toasts, ∃ i c, (r₀.steps ss).calls[i]? = some c ∧
      x.entry = c.entry ∧ (x.entry.status = .pending ↔ c.isEnded = false) ∧
      (c.isEnded = true → (recordsOf i (r₀.writes ss)).getLast? = some x.entry)) ∧
    (r₀.steps ss).tracker.history.entries
      = ((r₀.writes ss).map (·.change)).foldl (HistoryChange.apply r₀.tracker.history.maxItems)
        r₀.tracker.history.entries := by
  have hshows : r₀.Shows := by
    refine ⟨by simp [hcalls], by simp [htoasts], hlimit, ?_, ?_, ?_⟩
    · rw [moment, htoasts]
      exact hlimit
    · simp [moment, Moment.shownIds, htoasts]
    · simp [moment, Moment.shownIds, htoasts]
  obtain ⟨hend, hchain, hinOrder⟩ := moments_goOn hshows hids
  refine ⟨hinOrder, hchain.pairwise, shownIds_step hend.coherent, ?_, entries_steps r₀ ss⟩
  intro x hx
  obtain ⟨c, hc, hxc⟩ := hend.current x hx
  obtain ⟨i, hi⟩ := List.mem_iff_getElem?.1 hc
  refine ⟨i, c, hi, hxc, hxc ▸ (hend.coherent c hc).status, fun he => ?_⟩
  rw [getLast?_recordsOf hcalls, outcomeOf_of_getElem? hi, if_pos he, hxc]
  rfl

/-- Three contract payments with room for two toasts: the first is pushed out, the second succeeds,
is told to go back and is dismissed, the third is cancelled. -/
theorem three_payments_in_order :
    let history : History := { storage := { backend := .memory [] } }
    let r₀ : TrackerRun :=
      { tracker := { history, links := ⟨"https://classic", "https://soroban"⟩, maxToasts := 2 }
        now := ⟨0, 0⟩ }
    let info : TxMeta := ⟨.soroban, .withdraw, .xlm, .whole 5, none⟩
    let ss : List TrackerStep := [.start info, .start info, .finishWork 1 (.returned (.plain "ab")),
      .start info, .finishConfirmation 1 (.returned ()), .setPhase 1 .signing,
      .dismiss "0-000000000002", .finishWork 2 .cancelled]
    (r₀.steps ss).tracker.shownIds = ["0-000000000003"] ∧
    (r₀.steps ss).started.Nodup ∧
    (∀ m ∈ r₀.moments ss, m.InOrder 2) ∧
    (r₀.moments ss).Pairwise Precedes ∧
    ∀ x ∈ (r₀.steps ss).tracker.toasts, ∃ i c, (r₀.steps ss).calls[i]? = some c ∧
      x.entry = c.entry ∧ (x.entry.status = .pending ↔ c.isEnded = false) ∧
      (c.isEnded = true → (recordsOf i (r₀.writes ss)).getLast? = some x.entry) := by
  intro history r₀ info ss
  have hshown : (r₀.steps ss).tracker.shownIds = ["0-000000000003"] := by decide +kernel
  have hids : (r₀.steps ss).started.Nodup := by decide +kernel
  obtain ⟨hinOrder, hlater, -, hcurrent, -⟩ := toasts_in_order r₀ rfl rfl (by decide) ss hids
  exact ⟨hshown, hids, hinOrder, hlater, hcurrent⟩

end TrackerRun

end StellarWallet
