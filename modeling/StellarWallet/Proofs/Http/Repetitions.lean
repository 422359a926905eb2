import StellarWallet.Http.Script
import StellarWallet.Proofs.Http.Attempts

/-!
How often a call is repeated.

A call with some repetitions left makes one attempt after the other until one brings a value or a
fault that will not pass, or until none is left. That attempt alone says how the call ends, and the
pauses before it are the delays of the policy, one after the other. The first pause that the host
refuses, if there is one before that attempt, ends the call instead.
-/

namespace StellarWallet

namespace RetryPolicy

/-- The fault may be gone at the next attempt: no answer came in time, no connection was made, or
the answer had a status that the policy lists. -/
def MayPass (p : RetryPolicy) (fault : Fault) : Prop :=
  fault.kind ∈ [.timeout, .readTimeout, .connectTimeout] ∨
    fault.kind ∈ [.connection, .connectTimeout, .tls, .proxy] ∨
    ∃ response, fault.kind = .http (some response) ∧ response.status ≠ 0 ∧
      response.status ∈ p.statuses

/-- The last of some attempts, if there may be `n` more after the first one: those before it end in
faults that may pass, and it does not, or no other may follow. -/
structure IsLast (p : RetryPolicy) (outcome : Nat → Except Fault Value) (n k : Nat) : Prop where
  le : k ≤ n
  passes : ∀ i < k, ∃ fault, outcome i = .error fault ∧ p.MayPass fault
  ends : k = n ∨ ∀ fault, outcome k = .error fault → ¬ p.MayPass fault

variable {p : RetryPolicy} {outcome : Nat → Except Fault Value} {fault : Fault} {n k : Nat}

lemma retries_iff : p.retries fault = true ↔ p.MayPass fault := by
  obtain ⟨kind, message⟩ := fault
  cases kind with
  | http response => cases response <;>
      simp [retries, MayPass, FaultKind.isTimeout, FaultKind.isConnection]
  | _ => simp [retries, MayPass, FaultKind.isTimeout, FaultKind.isConnection]

lemma isLast_zero (h : n = 0 ∨ ∀ fault, outcome 0 = .error fault → ¬ p.MayPass fault) :
    p.IsLast outcome n 0 where
  le := Nat.zero_le n
  passes := fun _ hi => absurd hi (Nat.not_lt_zero _)
  ends := h.imp_left Eq.symm

lemma passes_of_not_isLast (h : ¬ p.IsLast outcome n 0) :
    ∃ fault, outcome 0 = .error fault ∧ p.MayPass fault := by
  by_contra hnone
  exact h (isLast_zero (Or.inr fun fault hfault hpass => hnone ⟨fault, hfault, hpass⟩))

lemma IsLast.succ (h : p.IsLast (fun i => outcome (i + 1)) n k)
    (hfirst : outcome 0 = .error fault) (hpass : p.MayPass fault) :
    p.IsLast outcome (n + 1) (k + 1) where
  le := Nat.succ_le_succ h.le
  passes := by
    intro i hi
    cases i with
    | zero => exact ⟨fault, hfirst, hpass⟩
    | succ i => exact h.passes i (Nat.lt_of_succ_lt_succ hi)
  ends := h.ends.imp_left (congrArg (· + 1))

/-- Without the first attempt. -/
lemma IsLast.tail (h : p.IsLast outcome (n + 1) (k + 1)) :
    p.IsLast (fun i => outcome (i + 1)) n k where
  le := Nat.le_of_succ_le_succ h.le
  passes := fun i hi => h.passes (i + 1) (Nat.succ_lt_succ hi)
  ends := h.ends.imp_left Nat.succ.inj

lemma exists_isLast (p : RetryPolicy) (outcome : Nat → Except Fault Value) (n : Nat) :
    ∃ k, p.IsLast outcome n k := by
  induction n generalizing outcome with
  | zero => exact ⟨0, isLast_zero (Or.inl rfl)⟩
  | succ n ih =>
    by_cases h : p.IsLast outcome (n + 1) 0
    · exact ⟨0, h⟩
    · obtain ⟨fault, hfault, hpass⟩ := passes_of_not_isLast h
      obtain ⟨k, hk⟩ := ih fun i => outcome (i + 1)
      exact ⟨k + 1, hk.succ hfault hpass⟩

/-- There is one last attempt. -/
lemma IsLast.le_of_isLast {k' : Nat} (h : p.IsLast outcome n k) (h' : p.IsLast outcome n k') :
    k ≤ k' := by
  by_contra hlt
  rw [Nat.not_le] at hlt
  obtain ⟨fault, hfault, hpass⟩ := h.passes k' hlt
  rcases h'.ends with rfl | hstays
  · exact absurd h.le (Nat.not_le.2 hlt)
  · exact hstays fault hfault hpass

lemma IsLast.unique {k' : Nat} (h : p.IsLast outcome n k) (h' : p.IsLast outcome n k') : k = k' :=
  Nat.le_antisymm (h.le_of_isLast h') (h'.le_of_isLast h)

end RetryPolicy

namespace Client

/-- The ways to ask a server. -/
inductive Verb where
  | get
  | getOptional
  | post

namespace Verb

def method : Verb → Method
  | .get | .getOptional => .get
  | .post => .post

/-- A missing thing counts as null. -/
def isOptional : Verb → Bool
  | .getOptional => true
  | .get | .post => false

def ask (c : Client) (endpoint context : String) (options : List (String × Value)) :
    Verb → Net ClientFault Value
  | .get => c.get endpoint context options
  | .getOptional => c.getOptional endpoint context options
  | .post => c.post endpoint context options

lemma ask_eq_call (c : Client) (endpoint context : String) (options : List (String × Value))
    (verb : Verb) : verb.ask c endpoint context options
      = c.call verb.isOptional (c.request verb.method endpoint options) context := by
  cases verb <;> rfl

end Verb

/-- What an attempt comes to, with `i` attempts before it. -/
def outcomeAt (host : Host) (optional : Bool) (request : Request) (past : List Request)
    (i : Nat) : Except Fault Value :=
  value host.reader optional request.url
    (host.server (past ++ List.replicate i request) request)

/-- A request is sent, and again after each of some pauses. -/
structure AreRepetitions (request : Request) (delays : List Number) (events : Journal) : Prop where
  requests : events.requests = List.replicate (delays.length + 1) request
  sleeps : events.sleeps = delays
  order : events.traffic = Journal.repeated request delays

/-- The first of the pauses before an attempt that a host refuses, and with what. -/
structure StopsAt (host : Host) (delay : Nat → Number) (k i : Nat) (refusal : Fault) : Prop where
  lt : i < k
  takes : ∀ i' < i, host.refusal (delay i') = none
  refuses : host.refusal (delay i) = some refusal

lemma areRepetitions_of_traffic {request : Request} {delays : List Number} {events : Journal}
    (h : events.traffic = Journal.repeated request delays) :
    AreRepetitions request delays events where
  requests := Journal.requests_of_traffic _ _ h
  sleeps := Journal.sleeps_of_traffic _ _ h
  order := h

section

variable (c : Client) (host : Host) (optional : Bool) (request : Request) (context : String)

lemma outcomeAt_zero (past : List Request) :
    outcomeAt host optional request past 0
      = value host.reader optional request.url (host.server past request) := by
  rw [outcomeAt, List.replicate_zero, List.append_nil]

lemma outcomeAt_succ (past : List Request) :
    outcomeAt host optional request (past ++ [request])
      = fun i => outcomeAt host optional request past (i + 1) := by
  funext i
  rw [outcomeAt, outcomeAt, List.replicate_succ, List.append_assoc, List.singleton_append]

variable {delay : Nat → Number} {left k : Nat}

/-- An attempt that is the last one ends the call. -/
lemma attempts_of_isLast (number : Nat) {j : Journal}
    (h : c.retry.IsLast (outcomeAt host optional request j.requests) left 0) :
    c.attempts optional request context left number host j
      = ((outcomeAt host optional request j.requests 0).mapError
          fun fault => .network (.ofFault fault request.url context), j ++ [.sent request]) := by
  have hends := h.ends
  rw [outcomeAt_zero] at hends ⊢
  cases hreply : value host.reader optional request.url (host.server j.requests request) with
  | ok v => exact attempts_of_value c host optional request context left number j hreply
  | error fault =>
    refine attempts_of_last c host optional request context left number j hreply ?_
    refine hends.imp Eq.symm fun hstays => Bool.eq_false_iff.2 fun hpass => ?_
    exact hstays fault hreply (RetryPolicy.retries_iff.1 hpass)

/-- An attempt that is not the last one fails, and what is said after it goes with its request. -/
lemma exists_of_isLast_succ {j : Journal}
    (h : c.retry.IsLast (outcomeAt host optional request j.requests) left (k + 1)) :
    ∃ (left' : Nat) (fault : Fault), left = left' + 1 ∧
      value host.reader optional request.url (host.server j.requests request) = .error fault ∧
      c.retry.retries fault = true ∧
      ∀ pause : Journal, pause.requests = [] →
        c.retry.IsLast (outcomeAt host optional request
          (Journal.requests (j ++ [.sent request] ++ pause))) left' k := by
  obtain ⟨fault, hfault, hpass⟩ := h.passes 0 (Nat.succ_pos k)
  obtain ⟨left, rfl⟩ := Nat.exists_eq_succ_of_ne_zero (Nat.ne_of_gt (Nat.lt_of_lt_of_le
    (Nat.succ_pos k) h.le))
  rw [outcomeAt_zero] at hfault
  refine ⟨left, fault, rfl, hfault, RetryPolicy.retries_iff.2 hpass, fun pause hpause => ?_⟩
  rw [Journal.requests_append, Journal.requests_append, hpause, List.append_nil,
    Journal.requests_sent, Journal.requests_nil, outcomeAt_succ]
  exact h.tail

lemma delay_succ {number : Nat}
    (hdelay : ∀ i < k + 1, c.retry.delay (number + i : Nat) = .ok (delay i)) :
    ∀ i < k, c.retry.delay (number + 1 + i : Nat) = .ok (delay (i + 1)) := by
  intro i hi
  rw [Nat.add_right_comm, Nat.add_assoc]
  exact hdelay (i + 1) (Nat.succ_lt_succ hi)

lemma traffic_pause_append (number : Nat) (fault : Fault) {events : Journal} (m : Nat)
    (htraffic : events.traffic
      = Journal.repeated request ((List.range m).map fun i => delay (i + 1))) :
    Journal.traffic ([.sent request] ++ c.pause request number fault (delay 0) ++ events)
      = Journal.repeated request ((List.range (m + 1)).map delay) := by
  rw [Journal.traffic_append, Journal.traffic_append, htraffic, List.range_succ_eq_map,
    List.map_cons, List.map_map]
  rfl

/-- The attempts of a call go on to the last one, which says how it ends, if no pause before it is
refused. -/
lemma attempts_end (number : Nat) (j : Journal)
    (h : c.retry.IsLast (outcomeAt host optional request j.requests) left k)
    (hdelay : ∀ i < k, c.retry.delay (number + i : Nat) = .ok (delay i))
    (htakes : ∀ i < k, host.refusal (delay i) = none) :
    ∃ events : Journal, c.attempts optional request context left number host j
        = ((outcomeAt host optional request j.requests k).mapError
            fun fault => .network (.ofFault fault request.url context), j ++ events) ∧
      events.traffic = Journal.repeated request ((List.range k).map delay) := by
  -- On the number of the last attempt; each moves the journal and the delays on.
  induction k generalizing left number j delay with
  | zero => exact ⟨_, attempts_of_isLast c host optional request context number h, rfl⟩
  | succ k ih =>
    obtain ⟨left, fault, rfl, hreply, hpass, hrest⟩ :=
      exists_of_isLast_succ c host optional request h
    have hpause : (c.pause request number fault (delay 0)).requests = [] := rfl
    obtain ⟨events, hrun, htraffic⟩ := ih (number + 1) _ (hrest _ hpause)
      (delay_succ c hdelay) fun i hi => htakes (i + 1) (Nat.succ_lt_succ hi)
    refine ⟨[.sent request] ++ c.pause request number fault (delay 0) ++ events, ?_,
      traffic_pause_append c request number fault k htraffic⟩
    rw [Journal.requests_append, Journal.requests_append, hpause, List.append_nil,
      Journal.requests_sent, Journal.requests_nil, outcomeAt_succ] at hrun
    rw [attempts_of_passes c host optional request context left number j hreply hpass
      (hdelay 0 (Nat.succ_pos k)) (htakes 0 (Nat.succ_pos k)), hrun]
    simp only [List.append_assoc]

/-- The first pause that is refused ends the call. -/
lemma attempts_stop (number : Nat) (j : Journal) {i : Nat} {refusal : Fault}
    (h : c.retry.IsLast (outcomeAt host optional request j.requests) left k)
    (hdelay : ∀ i < k, c.retry.delay (number + i : Nat) = .ok (delay i))
    (hstop : StopsAt host delay k i refusal) :
    ∃ events : Journal, c.attempts optional request context left number host j
        = (.error (.sleep refusal), j ++ events) ∧
      events.traffic = Journal.repeated request ((List.range i).map delay) := by
  -- On the number of the pause; each attempt before it moves the journal and the delays on.
  induction i generalizing left k number j delay with
  | zero =>
    obtain ⟨k, rfl⟩ := Nat.exists_eq_succ_of_ne_zero (Nat.ne_of_gt hstop.lt)
    obtain ⟨left, fault, rfl, hreply, hpass, -⟩ := exists_of_isLast_succ c host optional request h
    refine ⟨[.sent request] ++ c.warning request number fault (delay 0), ?_, rfl⟩
    rw [attempts_of_refused c host optional request context left number j hreply hpass
      (hdelay 0 (Nat.succ_pos k)) hstop.refuses, List.append_assoc]
  | succ i ih =>
    obtain ⟨k, rfl⟩ := Nat.exists_eq_succ_of_ne_zero (Nat.ne_of_gt
      (Nat.lt_of_le_of_lt (Nat.zero_le _) hstop.lt))
    obtain ⟨left, fault, rfl, hreply, hpass, hrest⟩ :=
      exists_of_isLast_succ c host optional request h
    have hpause : (c.pause request number fault (delay 0)).requests = [] := rfl
    have hnext : StopsAt host (fun i => delay (i + 1)) k i refusal :=
      ⟨Nat.lt_of_succ_lt_succ hstop.lt, fun i' hi => hstop.takes (i' + 1) (Nat.succ_lt_succ hi),
        hstop.refuses⟩
    obtain ⟨events, hrun, htraffic⟩ :=
      ih (number + 1) _ (hrest _ hpause) (delay_succ c hdelay) hnext
    refine ⟨[.sent request] ++ c.pause request number fault (delay 0) ++ events, ?_,
      traffic_pause_append c request number fault i htraffic⟩
    rw [attempts_of_passes c host optional request context left number j hreply hpass
      (hdelay 0 (Nat.succ_pos k)) (hstop.takes 0 (Nat.succ_pos i)), hrun]
    simp only [List.append_assoc]

end

end Client

end StellarWallet
