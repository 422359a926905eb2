import StellarWallet.Proofs.Http.SingleAttempt

/-!
The attempts of a call.

A call sends one request again and again, with a pause before each repetition and none elsewhere.
The reply to the last attempt decides how the call ends, unless the pause after it has no length or
is refused.
-/

namespace StellarWallet

namespace Journal

/-- The requests of a journal and the pauses between them. -/
def traffic (j : Journal) : Journal :=
  j.filter fun
    | .sent _ | .slept _ => true
    | .retried .. | .noted _ => false

lemma traffic_append (j k : Journal) : traffic (j ++ k) = j.traffic ++ traffic k :=
  List.filter_append j k

lemma requests_traffic (j : Journal) : j.traffic.requests = j.requests := by
  induction j with
  | nil => rfl
  | cons e j ih =>
    cases e with
    | sent r => exact congrArg (r :: ·) ih
    | slept d => exact ih
    | retried n f d => exact ih
    | noted r => exact ih

lemma sleeps_traffic (j : Journal) : j.traffic.sleeps = j.sleeps := by
  induction j with
  | nil => rfl
  | cons e j ih =>
    cases e with
    | sent r => exact ih
    | slept d => exact congrArg (d :: ·) ih
    | retried n f d => exact ih
    | noted r => exact ih

/-- A request, and again after each pause. -/
def repeated (request : Request) (delays : List Number) : Journal :=
  .sent request :: delays.flatMap fun delay => [.slept delay, .sent request]

variable (request : Request) (delays : List Number)

lemma requests_repeated :
    (repeated request delays).requests = List.replicate (delays.length + 1) request := by
  refine congrArg (request :: ·) ?_
  induction delays with
  | nil => rfl
  | cons delay delays ih => exact congrArg (request :: ·) ih

lemma sleeps_repeated : (repeated request delays).sleeps = delays := by
  change sleeps (delays.flatMap fun delay => [.slept delay, .sent request]) = delays
  induction delays with
  | nil => rfl
  | cons delay delays ih => exact congrArg (delay :: ·) ih

lemma sleeps_of_traffic {j : Journal} (h : j.traffic = repeated request delays) :
    j.sleeps = delays := by
  rw [← sleeps_traffic, h, sleeps_repeated]

lemma requests_of_traffic {j : Journal} (h : j.traffic = repeated request delays) :
    j.requests = List.replicate (delays.length + 1) request := by
  rw [← requests_traffic, h, requests_repeated]

end Journal

namespace Client

/-- How a call ends with the reply to an attempt, if `left` more could follow. -/
inductive EndsWith (c : Client) (host : Host) (optional : Bool) (request : Request)
    (context : String) (left number : Nat) (reply : Reply) : Except ClientFault Value → Prop
  | answered {v : Value} (h : value host.reader optional request.url reply = .ok v) :
    EndsWith c host optional request context left number reply (.ok v)
  /-- The attempt was the last one, or its fault will not pass. -/
  | failed {fault : Fault} (h : value host.reader optional request.url reply = .error fault)
      (last : left = 0 ∨ c.retry.retries fault = false) :
    EndsWith c host optional request context left number reply
      (.error (.network (.ofFault fault request.url context)))
  /-- The attempt would be repeated, but its pause has no length. -/
  | undelayed {fault : Fault} {e : ArithmeticFault}
      (h : value host.reader optional request.url reply = .error fault) (more : left ≠ 0)
      (passes : c.retry.retries fault = true) (delay : c.retry.delay number = .error e) :
    EndsWith c host optional request context left number reply (.error (.delay e))
  /-- The attempt would be repeated, but its pause is refused. -/
  | refused {fault refusal : Fault} {delay : Number}
      (h : value host.reader optional request.url reply = .error fault) (more : left ≠ 0)
      (passes : c.retry.retries fault = true) (hdelay : c.retry.delay number = .ok delay)
      (hrefusal : host.refusal delay = some refusal) :
    EndsWith c host optional request context left number reply (.error (.sleep refusal))

section

variable {c : Client} {host : Host} {optional : Bool} {request : Request} {context : String}
  {left number : Nat} {reply : Reply} {result : Except ClientFault Value} {v : Value}

lemma EndsWith.eq_ok (h : c.EndsWith host optional request context left number reply result)
    (hv : value host.reader optional request.url reply = .ok v) : result = .ok v := by
  cases h with
  | answered hw =>
    cases hw.symm.trans hv
    rfl
  | failed hf _ => cases hf.symm.trans hv
  | undelayed hf _ _ _ => cases hf.symm.trans hv
  | refused hf _ _ _ _ => cases hf.symm.trans hv

/-- A call succeeds only if its last reply does. -/
lemma EndsWith.value_eq_ok
    (h : c.EndsWith host optional request context left number reply result)
    (hv : result = .ok v) : value host.reader optional request.url reply = .ok v := by
  cases h with
  | answered hw =>
    cases hv
    exact hw
  | failed _ _ => cases hv
  | undelayed _ _ _ _ => cases hv
  | refused _ _ _ _ _ => cases hv

end

/-- What a client says between an attempt that failed and the next one. -/
def warning (c : Client) (request : Request) (number : Nat) (fault : Fault) (delay : Number) :
    Journal :=
  [.noted (.note part .warning
      (retryMessage request.url number (c.retry.maxRetries + 1) delay fault)),
    .retried (number + 1) fault delay]

/-- What a client does between an attempt that failed and the next one. -/
def pause (c : Client) (request : Request) (number : Nat) (fault : Fault) (delay : Number) :
    Journal := c.warning request number fault delay ++ [.slept delay]

section

variable (c : Client) (host : Host) (optional : Bool) (request : Request) (context : String)
  (left number : Nat) (j : Journal)

lemma attempts_of_value {v : Value}
    (h : value host.reader optional request.url (host.server j.requests request) = .ok v) :
    c.attempts optional request context left number host j = (.ok v, j ++ [.sent request]) := by
  cases left <;> rw [attempts, Net.bind_of_ok (Net.send_eq request host j),
    Net.bind_of_ok (Net.host_eq host _), h] <;> rfl

lemma attempts_of_last {fault : Fault}
    (h : value host.reader optional request.url (host.server j.requests request) = .error fault)
    (last : left = 0 ∨ c.retry.retries fault = false) :
    c.attempts optional request context left number host j
      = (.error (.network (.ofFault fault request.url context)), j ++ [.sent request]) := by
  cases left with
  | zero =>
    rw [attempts, Net.bind_of_ok (Net.send_eq request host j),
      Net.bind_of_ok (Net.host_eq host _), h]
    rfl
  | succ left =>
    have hlasts : c.retry.retries fault = false := last.resolve_left (Nat.succ_ne_zero left)
    rw [attempts, Net.bind_of_ok (Net.send_eq request host j),
      Net.bind_of_ok (Net.host_eq host _), h]
    dsimp only
    rw [hlasts, if_neg Bool.false_ne_true]
    rfl

section

variable {fault : Fault} {delay : Number}
  (h : value host.reader optional request.url (host.server j.requests request) = .error fault)
  (passes : c.retry.retries fault = true)

include h passes in
/-- Before a pause an attempt is told of, and the pause may be refused. -/
lemma attempts_of_delay (hdelay : c.retry.delay number = .ok delay) :
    c.attempts optional request context (left + 1) number host j
      = ((Net.sleep delay).mapError ClientFault.sleep >>= fun _ =>
            c.attempts optional request context left (number + 1)) host
          (j ++ [.sent request] ++ c.warning request number fault delay) := by
  rw [attempts, Net.bind_of_ok (Net.send_eq request host j),
    Net.bind_of_ok (Net.host_eq host _), h]
  dsimp only
  rw [passes, if_pos rfl, hdelay]
  have hwarning : j ++ [.sent request] ++ c.warning request number fault delay
      = j ++ [.sent request] ++ [.noted (.note part .warning (retryMessage request.url number
          (c.retry.maxRetries + 1) delay fault))] ++ [.retried (number + 1) fault delay] := by
    simp [warning]
  rw [hwarning]
  rfl

include h passes in
lemma attempts_of_passes (hdelay : c.retry.delay number = .ok delay)
    (htakes : host.refusal delay = none) :
    c.attempts optional request context (left + 1) number host j
      = c.attempts optional request context left (number + 1) host
          (j ++ [.sent request] ++ c.pause request number fault delay) := by
  have hsleep (k : Journal) : ((Net.sleep delay).mapError ClientFault.sleep) host k
      = (.ok (), k ++ [.slept delay]) := by
    rw [Net.mapError, Net.sleep, htakes]
  have hpause : j ++ [.sent request] ++ c.pause request number fault delay
      = j ++ [.sent request] ++ c.warning request number fault delay ++ [.slept delay] :=
    (List.append_assoc _ _ _).symm
  rw [attempts_of_delay c host optional request context left number j h passes hdelay,
    Net.bind_of_ok (hsleep _), hpause]

include h passes in
lemma attempts_of_refused {refusal : Fault} (hdelay : c.retry.delay number = .ok delay)
    (hrefusal : host.refusal delay = some refusal) :
    c.attempts optional request context (left + 1) number host j
      = (.error (.sleep refusal),
        j ++ [.sent request] ++ c.warning request number fault delay) := by
  have hsleep (k : Journal) : ((Net.sleep delay).mapError ClientFault.sleep) host k
      = (.error (.sleep refusal), k) := by
    rw [Net.mapError, Net.sleep, hrefusal]
  rw [attempts_of_delay c host optional request context left number j h passes hdelay,
    Net.bind_of_error (hsleep _)]

include h passes in
lemma attempts_of_undelayed {e : ArithmeticFault} (hdelay : c.retry.delay number = .error e) :
    c.attempts optional request context (left + 1) number host j
      = (.error (.delay e), j ++ [.sent request]) := by
  rw [attempts, Net.bind_of_ok (Net.send_eq request host j),
    Net.bind_of_ok (Net.host_eq host _), h]
  dsimp only
  rw [passes, if_pos rfl, hdelay]
  exact Net.bind_of_error rfl

end

/-- After a reply without a value a call fails, or goes on after a pause with one attempt less. -/
lemma attempts_of_fault {fault : Fault}
    (h : value host.reader optional request.url (host.server j.requests request)
      = .error fault) :
    (∃ e events, c.attempts optional request context left number host j
        = (.error e, j ++ events) ∧ events.traffic = [.sent request] ∧
      c.EndsWith host optional request context left number (host.server j.requests request)
        (.error e)) ∨
      ∃ (left' : Nat) (delay : Number) (pause : Journal), left = left' + 1 ∧
        c.retry.delay number = .ok delay ∧ pause.traffic = [.slept delay] ∧
        c.attempts optional request context left number host j
          = c.attempts optional request context left' (number + 1) host
              (j ++ [.sent request] ++ pause) := by
  by_cases last : left = 0 ∨ c.retry.retries fault = false
  · exact Or.inl ⟨_, _, attempts_of_last c host optional request context left number j h last, rfl,
      .failed h last⟩
  · rw [not_or, Bool.not_eq_false] at last
    obtain ⟨more, passes⟩ := last
    obtain ⟨left, rfl⟩ := Nat.exists_eq_succ_of_ne_zero more
    cases hdelay : c.retry.delay number with
    | error e =>
      exact Or.inl ⟨_, _, attempts_of_undelayed c host optional request context left number j h
        passes hdelay, rfl, .undelayed h more passes hdelay⟩
    | ok delay =>
      cases hrefusal : host.refusal delay with
      | some refusal =>
        refine Or.inl ⟨_, [.sent request] ++ c.warning request number fault delay, ?_, rfl,
          .refused h more passes hdelay hrefusal⟩
        rw [← List.append_assoc]
        exact attempts_of_refused c host optional request context left number j h passes hdelay
          hrefusal
      | none =>
        exact Or.inr ⟨left, delay, _, rfl, rfl, rfl, attempts_of_passes c host optional request
          context left number j h passes hdelay hrefusal⟩

/-- The attempts of a call send its request again after each pause, which has the delay of the
policy, and the reply to the last one decides how the call ends. -/
lemma attempts_spec :
    ∃ (events : Journal) (delays : List Number),
      (c.attempts optional request context left number host j).2 = j ++ events ∧
      events.traffic = Journal.repeated request delays ∧ delays.length ≤ left ∧
      (∀ i d, delays[i]? = some d → c.retry.delay (number + i : Nat) = .ok d) ∧
      c.EndsWith host optional request context (left - delays.length) (number + delays.length)
        (host.server (j.requests ++ List.replicate delays.length request) request)
        (c.attempts optional request context left number host j).1 := by
  -- On the attempts that are left; the journal grows with each, so it is general.
  induction left using Nat.strongRecOn generalizing number j with
  | ind left ih =>
    have hnone : ∀ (i : Nat) (d : Number), ([] : List Number)[i]? = some d →
        c.retry.delay (number + i : Nat) = .ok d := fun i d hd => by cases hd
    cases hreply : value host.reader optional request.url (host.server j.requests request) with
    | ok v =>
      rw [attempts_of_value c host optional request context left number j hreply]
      refine ⟨[.sent request], [], rfl, rfl, Nat.zero_le left, hnone, .answered ?_⟩
      rw [List.length_nil, List.replicate_zero, List.append_nil]
      exact hreply
    | error fault =>
      obtain ⟨e, events, he, htraffic, hends⟩ | ⟨left', delay, pause, rfl, hdelay, hpause, hnext⟩ :=
        attempts_of_fault c host optional request context left number j hreply
      · rw [he]
        refine ⟨events, [], rfl, htraffic, Nat.zero_le left, hnone, ?_⟩
        rw [List.length_nil, List.replicate_zero, List.append_nil]
        exact hends
      · rw [hnext]
        obtain ⟨events, delays, hevents, htraffic, hlength, hdelays, hends⟩ :=
          ih left' (Nat.lt_succ_self left') (number + 1) (j ++ [.sent request] ++ pause)
        have hsilent : pause.requests = [] := by
          rw [← Journal.requests_traffic, hpause]
          rfl
        refine ⟨[.sent request] ++ pause ++ events, delay :: delays, ?_, ?_,
          Nat.succ_le_succ hlength, ?_, ?_⟩
        · rw [hevents]
          simp only [List.append_assoc]
        · rw [Journal.traffic_append, Journal.traffic_append, hpause, htraffic]
          rfl
        · intro i d hd
          cases i with
          | zero =>
            cases hd
            exact hdelay
          | succ i =>
            rw [← Nat.add_assoc, Nat.add_right_comm]
            exact hdelays i d hd
        · rw [List.length_cons, Nat.add_sub_add_right, ← Nat.add_assoc, Nat.add_right_comm,
            List.replicate_succ, List.append_cons]
          rw [Journal.requests_append, Journal.requests_append, hsilent, List.append_nil] at hends
          exact hends

end

/-- The same for a call that may make at least one attempt. -/
lemma call_attempts {c : Client} (hretries : 0 ≤ c.retry.maxRetries) (host : Host)
    (optional : Bool) (request : Request) (context : String) (j : Journal) :
    ∃ (events : Journal) (delays : List Number),
      (c.call optional request context host j).2 = j ++ events ∧
      events.traffic = Journal.repeated request delays ∧
      (delays.length : Int) ≤ c.retry.maxRetries ∧
      (∀ i d, delays[i]? = some d → c.retry.delay (i : Nat) = .ok d) ∧
      c.EndsWith host optional request context (c.retry.maxRetries.toNat - delays.length)
        delays.length (host.server (j.requests ++ List.replicate delays.length request) request)
        (c.call optional request context host j).1 := by
  obtain ⟨events, delays, hevents, htraffic, hlength, hdelays, hends⟩ :=
    attempts_spec c host optional request context c.retry.maxRetries.toNat 0 j
  simp only [Nat.zero_add] at hdelays hends
  rw [call, if_neg (by omega)]
  exact ⟨events, delays, hevents, htraffic, by omega, hdelays, hends⟩

end Client

end StellarWallet
