import StellarWallet.Proofs.Http.LastReply

/-!
Calls for a thing that may be missing.

An optional call sends what a plain call sends and pauses where it pauses. It ends as the plain call
does, except that it takes the failure of a missing thing for null.
-/

namespace StellarWallet

variable {reader : Json.Reader}

/-- No exchange with the server fails with a status; statuses come with answers only. -/
def Server.AnswersStatuses (server : Server) : Prop :=
  ∀ past request fault, server past request = .failure fault →
    ∀ response, fault.kind ≠ .http response

namespace NetworkFailure

variable {fault : Fault} (url context : String)

lemma isNotFound_of_http {response : ErrorResponse} (h : fault.kind = .http (some response)) :
    (ofFault fault url context).isNotFound = decide (response.status = 404) := by
  obtain ⟨kind, message⟩ := fault
  cases h
  exact decide_eq_decide.2 Option.some_inj

lemma isNotFound_of_not_http (h : ∀ response, fault.kind ≠ .http response) :
    (ofFault fault url context).isNotFound = false := by
  obtain ⟨kind, message⟩ := fault
  cases kind with
  | http response => exact absurd rfl (h response)
  | _ => rfl

end NetworkFailure

namespace Client

/-- The end of a call, with null in the place of the failure of a missing thing. -/
def forgive : Except ClientFault Value → Except ClientFault Value
  | .error (.network f) => if f.isNotFound then .ok .null else .error (.network f)
  | r => r

section

variable (url : String) {reply : Reply} {fault : Fault}

lemma value_of_not_isMissing (h : ¬ reply.IsMissing) (optional : Bool) :
    value reader optional url reply = value reader false url reply := by
  cases reply with
  | failure fault => rfl
  | answer status body reason =>
    have hstatus : status ≠ 404 := by
      rintro rfl
      exact h ⟨body, reason, rfl⟩
    have hfound : ∀ b : Bool, ¬ (b = true ∧ status = 404) := fun _ hs => hstatus hs.2
    rw [value, value, if_neg (hfound optional), if_neg (hfound false)]

lemma value_false_of_isMissing (reader : Json.Reader) (h : reply.IsMissing) :
    ∃ body reason, value reader false url reply
      = .error ⟨.http (some ⟨404, body⟩), statusMessage 404 reason url⟩ := by
  obtain ⟨body, reason, rfl⟩ := h
  exact ⟨body, reason, rfl⟩

/-- Only a missing thing fails as one. -/
lemma isNotFound_ofFault (hvalue : value reader false url reply = .error fault)
    (hmissing : ¬ reply.IsMissing)
    (hreply : ∀ fault, reply = .failure fault → ∀ response, fault.kind ≠ .http response)
    (context : String) : (NetworkFailure.ofFault fault url context).isNotFound = false := by
  cases reply with
  | failure fault' =>
    cases hvalue
    exact NetworkFailure.isNotFound_of_not_http url context (hreply fault rfl)
  | answer status body reason =>
    have hstatus : status ≠ 404 := by
      rintro rfl
      exact hmissing ⟨body, reason, rfl⟩
    rw [value, if_neg (by simp)] at hvalue
    split at hvalue
    · cases hvalue
      rw [NetworkFailure.isNotFound_of_http url context rfl]
      exact decide_eq_false hstatus
    · cases hread : reader.read body with
      | ok v =>
        rw [hread] at hvalue
        cases hvalue
      | error readFault =>
        rw [hread] at hvalue
        cases hvalue
        refine NetworkFailure.isNotFound_of_not_http url context fun response hkind => ?_
        cases readFault <;> cases hkind

end

section

variable {c : Client} {host : Host} (h404 : 404 ∉ c.retry.statuses)
  (hserver : host.server.AnswersStatuses) (request : Request) (context : String)

include h404 in
lemma not_retries_missing {body message : String} :
    c.retry.retries ⟨.http (some ⟨404, body⟩), message⟩ = false := by
  simp [RetryPolicy.retries, FaultKind.isTimeout, FaultKind.isConnection, h404]

include h404 hserver in
/-- The attempts of an optional call are those of a plain one. -/
lemma attempts_optional (left number : Nat) (j : Journal) :
    c.attempts true request context left number host j
      = (forgive (c.attempts false request context left number host j).1,
        (c.attempts false request context left number host j).2) := by
  induction left using Nat.strongRecOn generalizing number j with
  | ind left ih =>
    by_cases hmissing : (host.server j.requests request).IsMissing
    · obtain ⟨body, reason, hvalue⟩ :=
        value_false_of_isMissing request.url host.reader hmissing
      rw [attempts_of_value c host true request context left number j
          (value_of_isMissing hmissing),
        attempts_of_last c host false request context left number j hvalue
          (Or.inr (not_retries_missing h404))]
      rfl
    · have hsame : value host.reader true request.url (host.server j.requests request)
          = value host.reader false request.url (host.server j.requests request) :=
        value_of_not_isMissing request.url hmissing true
      cases hvalue : value host.reader false request.url (host.server j.requests request) with
      | ok v =>
        rw [attempts_of_value c host true request context left number j (hsame.trans hvalue),
          attempts_of_value c host false request context left number j hvalue]
        rfl
      | error fault =>
        have hfound := isNotFound_ofFault request.url hvalue hmissing (hserver _ _) context
        by_cases hlast : left = 0 ∨ c.retry.retries fault = false
        · rw [attempts_of_last c host true request context left number j (hsame.trans hvalue)
              hlast,
            attempts_of_last c host false request context left number j hvalue hlast, forgive,
            hfound, if_neg Bool.false_ne_true]
        · rw [not_or, Bool.not_eq_false] at hlast
          obtain ⟨hmore, hpasses⟩ := hlast
          obtain ⟨left, rfl⟩ := Nat.exists_eq_succ_of_ne_zero hmore
          cases hdelay : c.retry.delay number with
          | error e =>
            rw [attempts_of_undelayed c host true request context left number j
                (hsame.trans hvalue) hpasses hdelay,
              attempts_of_undelayed c host false request context left number j hvalue hpasses
                hdelay]
            rfl
          | ok delay =>
            cases hrefusal : host.refusal delay with
            | some refusal =>
              rw [attempts_of_refused c host true request context left number j
                  (hsame.trans hvalue) hpasses hdelay hrefusal,
                attempts_of_refused c host false request context left number j hvalue hpasses
                  hdelay hrefusal]
              rfl
            | none =>
              rw [attempts_of_passes c host true request context left number j
                  (hsame.trans hvalue) hpasses hdelay hrefusal,
                attempts_of_passes c host false request context left number j hvalue hpasses
                  hdelay hrefusal]
              exact ih left (Nat.lt_succ_self left) (number + 1) _

include h404 hserver in
lemma getOptional_eq (endpoint : String) (options : List (String × Value)) (j : Journal) :
    c.getOptional endpoint context options host j
      = (forgive (c.get endpoint context options host j).1,
        (c.get endpoint context options host j).2) := by
  rw [getOptional, get, call, call]
  split
  · rfl
  · exact attempts_optional h404 hserver _ _ _ _ _

end

/-- **A missing thing is null.** Where the policy does not repeat missing things, an optional call
does all that a plain one does, request by request and pause by pause, and ends with the same value
or the same failure; but where the plain call fails with status 404, the optional one ends with
null. -/
theorem getOptional_forgives_missing (c : Client) (h404 : 404 ∉ c.retry.statuses) (host : Host)
    (hserver : host.server.AnswersStatuses) (endpoint context : String)
    (options : List (String × Value)) (j : Journal) :
    let plain := c.get endpoint context options host j
    let optional := c.getOptional endpoint context options host j
    optional.2 = plain.2 ∧
      (∀ v, plain.1 = .ok v → optional.1 = .ok v) ∧
      (∀ f, plain.1 = .error (.network f) → f.status = some 404 → optional.1 = .ok .null) ∧
      ∀ e, plain.1 = .error e → (∀ f, e = .network f → f.status ≠ some 404) →
        optional.1 = .error e := by
  intro plain optional
  have heq : optional = (forgive plain.1, plain.2) :=
    getOptional_eq h404 hserver context endpoint options j
  rw [heq]
  refine ⟨rfl, ?_, ?_, ?_⟩
  · intro v hv
    rw [hv]
    rfl
  · intro f hf hstatus
    rw [hf, forgive, NetworkFailure.isNotFound, hstatus]
    rfl
  · intro e he hother
    rw [he]
    cases e with
    | delay e => rfl
    | sleep refusal => rfl
    | network f =>
      rw [forgive, NetworkFailure.isNotFound, decide_eq_false (hother f rfl)]
      rfl

/-- A wallet without funds, found missing at the second attempt. -/
theorem getOptional_of_late_missing :
    let c := Client.ofBase "https://ledger.test"
    let server : Server := fun past _ =>
      [.failure ⟨.connectTimeout, "slow"⟩].getD past.length (.answer 404 "gone")
    404 ∉ c.retry.statuses ∧ server.AnswersStatuses ∧
      (c.get "accounts/G1" "" [] { server } []).1
        = .error (.network ⟨.http, "HTTP error 404: gone", some 404, some "gone"⟩) ∧
      (c.getOptional "accounts/G1" "" [] { server } []).1 = .ok .null ∧
      (c.getOptional "accounts/G1" "" [] { server } []).2
        = (c.get "accounts/G1" "" [] { server } []).2 := by
  intro c server
  let host : Host := { server }
  have h404 : 404 ∉ c.retry.statuses := by decide
  have hserver : server.AnswersStatuses := by
    intro past request fault hfault response
    cases past with
    | nil =>
      cases hfault
      exact nofun
    | cons first past => cases hfault
  have hdelay : c.retry.delay (0 : Nat) = .ok (.real (.ofRatio false 1 2)) := by decide +kernel
  have htakes : host.refusal (.real (.ofRatio false 1 2)) = none := by decide +kernel
  have hget : (c.get "accounts/G1" "" [] host []).1
      = .error (.network ⟨.http, "HTTP error 404: gone", some 404, some "gone"⟩) := by
    let request := c.request .get "accounts/G1" []
    let slow : Fault := ⟨.connectTimeout, "slow"⟩
    let half : Number := .real (.ofRatio false 1 2)
    let paused : Journal := [] ++ [.sent request] ++ c.pause request 0 slow half
    have hslow : value host.reader false request.url (server [] request) = .error slow := rfl
    have hgone : value host.reader false request.url (server paused.requests request)
        = .error ⟨.http (some ⟨404, "gone"⟩), statusMessage 404 none request.url⟩ := rfl
    change (c.attempts false request "" 2 0 host []).1 = _
    rw [attempts_of_passes c host false request "" 1 0 [] hslow rfl hdelay htakes,
      attempts_of_last c host false request "" 1 1 paused hgone (Or.inr rfl)]
    rfl
  obtain ⟨hjournal, -, hmissing, -⟩ :=
    getOptional_forgives_missing c h404 host hserver "accounts/G1" "" [] []
  exact ⟨h404, hserver, hget, hmissing _ hget rfl, hjournal⟩

end Client

end StellarWallet
