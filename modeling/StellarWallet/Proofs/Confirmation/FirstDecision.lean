import StellarWallet.Confirmation
import StellarWallet.Proofs.Http.SingleAttempt
import StellarWallet.Proofs.Json.Depth

/-!
The first decisive reply decides.

What a reply decides is read off its status and its body. Waiting for a confirmation sends one
request a question, stops at the first reply that decides, pauses after each one that does not, and
gives up after the last question that it may ask.
-/

namespace StellarWallet

/-- The end of the waiting that a verdict brings about, if it does. -/
def Verdict.settled? : Verdict → Option (Except Fault Unit)
  | .confirmed => some (.ok ())
  | .failed message => some (.error (Confirmation.fault message))
  | .undecided _ => none

/-- The pause that a verdict asks for. -/
def Verdict.pause? : Verdict → Option Number
  | .undecided pause => some pause
  | _ => none

namespace Confirmation

/-- What a reply of the classic ledger decides: a missing transaction and one that is neither
successful nor not are waited for, a reply that cannot be read fails. -/
def classicDecision (reader : Json.Reader) (policy : ConfirmationPolicy) : Reply → Verdict
  | .failure _ => .failed unverified.message
  | .answer status body _ =>
    if status = 404 then .undecided policy.notFoundDelay
    else if 400 ≤ status ∧ status < 600 then .failed unverified.message
    else match reader.read? body with
      | none => .failed unverified.message
      | some .null => .undecided policy.notFoundDelay
      | some (.object fields) =>
        match Fields.lookup "successful" fields with
        | some (.bool true) => .confirmed
        | some (.bool false) => .failed (Reason.ofLedgerReply (.object fields))
        | _ => .undecided policy.pendingDelay
      | some _ => .undecided policy.pendingDelay

/-- The message of an error among the fields of a reply, if there is something in it. -/
def filledMessage? (fields : List (String × Value)) : Option Value :=
  match Fields.lookup "error" fields with
  | some (.object error) => (Fields.lookup "message" error).filter Value.isFilled
  | _ => none

/-- What a reply of the contract ledger decides: an error with a message before any result, then
the status of the result; all else is waited for. -/
def sorobanDecision (reader : Json.Reader) (policy : ConfirmationPolicy) : Reply → Verdict
  | .failure _ => .undecided policy.pollDelay
  | .answer status body _ =>
    if 400 ≤ status ∧ status < 600 then .undecided policy.pollDelay
    else match reader.read? body with
      | some (.object fields) =>
        match filledMessage? fields with
        | some message => .failed message.display
        | none =>
          match Fields.lookup "result" fields with
          | some (.object result) =>
            match Fields.lookup "status" result with
            | some (.text "SUCCESS") => .confirmed
            | some (.text "FAILED") => .failed (contractFailure (.object result))
            | _ => .undecided policy.pollDelay
          | _ => .undecided policy.pollDelay
      | _ => .undecided policy.pollDelay

/-! ### Polling -/

/-- A question that does no more than to send one request, report what the reply decides and make
notes. -/
def Asks (host : Host) (question : Nat → Net Fault Verdict) (request : Nat → Request)
    (decision : Reply → Verdict) : Prop :=
  ∀ k j, ∃ records : List LogRecord,
    let verdict := decision (host.server j.requests (request k))
    let j' := j ++ [.sent (request k)] ++ records.map .noted
    question k host j = (.ok verdict, j') ∨
      ∃ message, verdict = .failed message ∧ question k host j = (.error (fault message), j')

/-- The verdict on each reply of a course of questions. -/
def verdictAt (request : Nat → Request) (decision : Reply → Verdict) (server : Server)
    (before : List Request) (k : Nat) : Verdict :=
  decision (server (before ++ (List.range k).map request) (request k))

/-- What has happened when some of the questions are asked and some of the verdicts waited for. -/
def Traces (request : Nat → Request) (verdict : Nat → Verdict) (j j' : Journal)
    (asked waited : Nat) : Prop :=
  j'.requests = j.requests ++ (List.range asked).map request ∧
    j'.sleeps = j.sleeps ++ (List.range waited).filterMap fun i => (verdict i).pause?

/-- The waiting ends with the first verdict of `n` that settles it, else with the time out. -/
def EndsWithFirst (request : Nat → Request) (verdict : Nat → Verdict) (timeout : Fault) (n : Nat)
    (j : Journal) (r : Except Fault Unit × Journal) : Prop :=
  (∃ k < n, (∀ i < k, (verdict i).settled? = none) ∧ (verdict k).settled? = some r.1 ∧
    Traces request verdict j r.2 (k + 1) k) ∨
  (∀ i < n, (verdict i).settled? = none) ∧ r.1 = .error timeout ∧ Traces request verdict j r.2 n n

variable {question : Nat → Net Fault Verdict} {request : Nat → Request}
  {decision : Reply → Verdict} {verdict : Nat → Verdict} {timeout : Fault} {j j' : Journal}

lemma Traces.cons {asked waited : Nat} {pause : Number}
    (hr : j'.requests = j.requests ++ [request 0]) (hs : j'.sleeps = j.sleeps ++ [pause])
    (hv : verdict 0 = .undecided pause) {j'' : Journal}
    (h : Traces (fun i => request (i + 1)) (fun i => verdict (i + 1)) j' j'' asked waited) :
    Traces request verdict j j'' (asked + 1) (waited + 1) := by
  obtain ⟨hreq, hsl⟩ := h
  refine ⟨?_, ?_⟩
  · rw [hreq, hr, List.range_succ_eq_map, List.map_cons, List.map_map, List.append_assoc]
    rfl
  · rw [hsl, hs, List.range_succ_eq_map, List.filterMap_cons_some (b := pause) (by rw [hv]; rfl),
      List.filterMap_map, List.append_assoc]
    rfl

/-- A first verdict that settles nothing leaves the end to the others. -/
lemma EndsWithFirst.cons {n : Nat} {pause : Number} {r : Except Fault Unit × Journal}
    (hr : j'.requests = j.requests ++ [request 0]) (hs : j'.sleeps = j.sleeps ++ [pause])
    (hv : verdict 0 = .undecided pause)
    (h : EndsWithFirst (fun i => request (i + 1)) (fun i => verdict (i + 1)) timeout n j' r) :
    EndsWithFirst request verdict timeout (n + 1) j r := by
  have hfirst : ∀ m, (∀ i < m, (verdict (i + 1)).settled? = none) →
      ∀ i < m + 1, (verdict i).settled? = none := by
    intro m hm i hi
    cases i with
    | zero => rw [hv]; rfl
    | succ i => exact hm i (Nat.lt_of_succ_lt_succ hi)
  rcases h with ⟨k, hk, hbefore, hend, htrace⟩ | ⟨hall, hend, htrace⟩
  · exact Or.inl ⟨k + 1, Nat.succ_lt_succ hk, hfirst k hbefore, hend, htrace.cons hr hs hv⟩
  · exact Or.inr ⟨hfirst n hall, hend, htrace.cons hr hs hv⟩

/-- A first verdict that settles the waiting ends it. -/
lemma EndsWithFirst.first {n : Nat} {out : Except Fault Unit}
    (hr : j'.requests = j.requests ++ [request 0]) (hs : j'.sleeps = j.sleeps)
    (hv : (verdict 0).settled? = some out) :
    EndsWithFirst request verdict timeout (n + 1) j (out, j') := by
  have hbefore : ∀ i < 0, (verdict i).settled? = none := by omega
  have hsleeps : j'.sleeps = j.sleeps ++ [] := by rw [hs, List.append_nil]
  exact Or.inl ⟨0, Nat.succ_pos n, hbefore, hv, hr, hsleeps⟩

lemma verdictAt_zero (request : Nat → Request) (server : Server) (before : List Request) :
    verdictAt request decision server before 0 = decision (server before (request 0)) := by
  rw [verdictAt, List.range_zero, List.map_nil, List.append_nil]

lemma verdictAt_succ (request : Nat → Request) (k : Nat) (server : Server) (before : List Request) :
    verdictAt (fun i => request (i + 1)) decision server (before ++ [request 0]) k
      = verdictAt request decision server before (k + 1) := by
  rw [verdictAt, verdictAt, List.range_succ_eq_map, List.map_cons, List.map_map, List.append_assoc]
  rfl

/-- Polling ends with the first verdict that settles it. -/
lemma poll_endsWithFirst (timeout : Fault) (host : Host) (left asked : Nat) (j : Journal)
    (h : Asks host question request decision) :
    EndsWithFirst (fun i => request (asked + i))
      (verdictAt (fun i => request (asked + i)) decision host.server j.requests) timeout left j
      (poll question timeout left asked host j) := by
  induction left generalizing asked j with
  | zero =>
    refine Or.inr ⟨by omega, rfl, ?_, ?_⟩
    · exact (List.append_nil _).symm
    · exact (List.append_nil _).symm
  | succ left ih =>
    obtain ⟨records, hq⟩ := h asked j
    obtain ⟨j', hj'⟩ : ∃ j' : Journal, j' = j ++ [.sent (request asked)] ++ records.map .noted :=
      ⟨_, rfl⟩
    have hr : j'.requests = j.requests ++ [request asked] := by simp [hj']
    have hs : j'.sleeps = j.sleeps := by simp [hj']
    have hzero : verdictAt (fun i => request (asked + i)) decision host.server j.requests 0
        = decision (host.server j.requests (request asked)) := verdictAt_zero _ _ _
    rw [← hj'] at hq
    rw [poll]
    rcases hq with hq | ⟨message, hv, hq⟩
    · rw [Net.bind_of_ok hq]
      cases hv : decision (host.server j.requests (request asked)) with
      | confirmed => exact EndsWithFirst.first hr hs (by rw [hzero, hv]; rfl)
      | failed message => exact EndsWithFirst.first hr hs (by rw [hzero, hv]; rfl)
      | undecided pause =>
        -- The questions that are left are asked after a pause, each with a number higher by one.
        have hih := ih (asked + 1) (j' ++ [.slept pause])
        have hreq : (j' ++ [NetEvent.slept pause] : Journal).requests
            = j.requests ++ [request asked] := by simp [hr]
        have hsl : (j' ++ [NetEvent.slept pause] : Journal).sleeps = j.sleeps ++ [pause] := by
          simp [hs]
        have hshift : (fun i => request (asked + 1 + i)) = fun i => request (asked + (i + 1)) := by
          funext i
          rw [Nat.add_assoc, Nat.add_comm 1 i]
        have hverdict : verdictAt (fun i => request (asked + (i + 1))) decision host.server
              (j.requests ++ [request asked])
            = fun i => verdictAt (fun i => request (asked + i)) decision host.server j.requests
              (i + 1) := by
          funext i
          exact verdictAt_succ (fun i => request (asked + i)) i host.server j.requests
        rw [hshift, hreq, hverdict] at hih
        exact EndsWithFirst.cons hreq hsl (by rw [hzero, hv]) hih
    · rw [Net.bind_of_error hq]
      exact EndsWithFirst.first hr hs (by rw [hzero, hv]; rfl)

/-- A note after the waiting changes neither its end nor what was asked. -/
lemma EndsWithFirst.note {n : Nat} {p : Net Fault Unit} {host : Host}
    (h : EndsWithFirst request verdict timeout n j (p host j)) (source : String)
    (level : LogLevel) (message : String) :
    EndsWithFirst request verdict timeout n j
      ((p >>= fun _ => Net.note source level message) host j) := by
  obtain ⟨out, j', hp⟩ : ∃ out j', p host j = (out, j') := ⟨_, _, rfl⟩
  rw [hp] at h
  cases out with
  | error fault =>
    rw [Net.bind_of_error hp]
    exact h
  | ok a =>
    have hn : (p >>= fun _ => Net.note source level message) host j
        = (.ok (), j' ++ [.noted (.note source level message)]) := Net.bind_of_ok hp
    have htrace : ∀ asked waited, Traces request verdict j j' asked waited →
        Traces request verdict j (j' ++ [.noted (.note source level message)]) asked waited := by
      rintro asked waited ⟨hr, hs⟩
      exact ⟨by simpa using hr, by simpa using hs⟩
    rw [hn]
    rcases h with ⟨k, hk, hbefore, hend, ht⟩ | ⟨hall, hend, ht⟩
    · exact Or.inl ⟨k, hk, hbefore, hend, htrace _ _ ht⟩
    · exact Or.inr ⟨hall, hend, htrace _ _ ht⟩

end Confirmation

namespace WalletSettings

open Confirmation

/-! ### The two ledgers -/

/-- How often the state of a transaction is asked for at most. -/
def questions (s : WalletSettings) : TxKind → Nat
  | .classic => s.confirmation.classicAttempts.toNat
  | .soroban => s.confirmation.sorobanAttempts.toNat

/-- The request of a question. -/
def question (s : WalletSettings) (hash : String) (kind : TxKind) (asked : Nat) : Request :=
  match kind with
  | .classic =>
    s.classicStateClient.request .get ("/transactions/" ++ ExplorerLinks.segment hash) []
  | .soroban => s.sorobanStateClient.request .post "" [("json", sorobanQuestion hash asked)]

/-- What a reply decides. -/
def decision (s : WalletSettings) (reader : Json.Reader) : TxKind → Reply → Verdict
  | .classic => classicDecision reader s.confirmation
  | .soroban => sorobanDecision reader s.confirmation

def confirmationTimeout : TxKind → Fault
  | .classic => classicTimeout
  | .soroban => sorobanTimeout

variable (s : WalletSettings) (hash : String) (reader : Json.Reader)

lemma classicDecision_of_answer (policy : ConfirmationPolicy) (request : Request)
    (context : String) (reply : Reply) :
    (∃ v, Client.answer reader true request context reply = .ok v ∧
      classicDecision reader policy reply = classicVerdict policy v) ∨
    ∃ problem, Client.answer reader true request context reply = .error (.network problem) ∧
      classicDecision reader policy reply = .failed unverified.message := by
  cases reply with
  | failure fault => exact Or.inr ⟨_, rfl, rfl⟩
  | answer status body reason =>
    unfold Client.answer Client.value classicDecision
    by_cases hmissing : status = 404
    · exact Or.inl ⟨.null, by simp [hmissing], by simp only [hmissing]; rfl⟩
    · by_cases herror : 400 ≤ status ∧ status < 600
      · exact Or.inr ⟨_, by simp only [hmissing, herror]; rfl, by simp [hmissing, herror]⟩
      · simp only [hmissing, herror, and_false, if_false]
        rw [Json.Reader.read?]
        cases reader.read body with
        | error fault => exact Or.inr ⟨_, rfl, rfl⟩
        | ok v =>
          refine Or.inl ⟨v, rfl, ?_⟩
          cases v <;> rfl

lemma errorMessage?_object (fields : List (String × Value)) :
    errorMessage? (.object fields) = (filledMessage? fields).map Value.display := by
  unfold errorMessage? filledMessage?
  simp only [Value.field?]
  cases he : Fields.lookup "error" fields with
  | none => rfl
  | some e =>
    cases e with
    | object error =>
      simp only [Option.bind_some]
      cases hm : Fields.lookup "message" error with
      | none => rfl
      | some message => cases hf : message.isFilled <;> simp [hf, Option.filter]
    | _ => rfl

/-- What an object decides on the contract ledger. -/
lemma sorobanVerdict_object (policy : ConfirmationPolicy) (fields : List (String × Value)) :
    sorobanVerdict policy (.object fields) =
      match filledMessage? fields with
      | some message => .failed message.display
      | none =>
        match Fields.lookup "result" fields with
        | some (.object result) =>
          match Fields.lookup "status" result with
          | some (.text "SUCCESS") => .confirmed
          | some (.text "FAILED") => .failed (contractFailure (.object result))
          | _ => .undecided policy.pollDelay
        | _ => .undecided policy.pollDelay := by
  unfold sorobanVerdict
  rw [errorMessage?_object]
  cases filledMessage? fields with
  | some message => rfl
  | none =>
    simp only [Option.map_none, Value.field?]
    cases Fields.lookup "result" fields with
    | none => rfl
    | some result => cases result <;> rfl

lemma sorobanDecision_of_answer (policy : ConfirmationPolicy) (request : Request)
    (context : String) (reply : Reply) :
    (∃ v, Client.answer reader false request context reply = .ok v ∧
      sorobanDecision reader policy reply = sorobanVerdict policy v) ∨
    ∃ problem, Client.answer reader false request context reply = .error (.network problem) ∧
      sorobanDecision reader policy reply = .undecided policy.pollDelay := by
  cases reply with
  | failure fault => exact Or.inr ⟨_, rfl, rfl⟩
  | answer status body reason =>
    unfold Client.answer Client.value sorobanDecision
    by_cases herror : 400 ≤ status ∧ status < 600
    · exact Or.inr ⟨_, by simp only [herror]; rfl, by simp [herror]⟩
    · simp only [herror, Bool.false_eq_true, false_and, if_false]
      rw [Json.Reader.read?]
      cases reader.read body with
      | error fault => exact Or.inr ⟨_, rfl, rfl⟩
      | ok v =>
        refine Or.inl ⟨v, rfl, ?_⟩
        cases v with
        | object fields => exact (sorobanVerdict_object policy fields).symm
        | _ => rfl

lemma asks_classic (host : Host) : Asks host (s.askClassic hash) (s.question hash .classic)
    (classicDecision host.reader s.confirmation) := by
  intro k j
  have hask : s.askClassic hash k host j = _ := Net.bind_of_ok
    (Client.outcome_call_of_never rfl true (s.question hash .classic k)
      "Check Horizon transaction" host j)
  rcases classicDecision_of_answer host.reader s.confirmation (s.question hash .classic k)
    "Check Horizon transaction" (host.server j.requests (s.question hash .classic k))
    with ⟨v, ha, hd⟩ | ⟨problem, ha, hd⟩
  · rw [ha] at hask
    cases hv : v.isNull with
    | true =>
      refine ⟨[.note part .debug ("Transaction " ++ hash ++ " not ingested yet (attempt "
        ++ toString (k + 1) ++ ")")], Or.inl ?_⟩
      rw [hask, hd]
      simp only [hv, if_true]
      rfl
    | false =>
      refine ⟨[], Or.inl ?_⟩
      rw [hask, hd]
      simp only [hv, List.map_nil, List.append_nil]
      rfl
  · rw [ha] at hask
    refine ⟨[.note part .warning ("Horizon status check for " ++ hash ++ " failed: "
      ++ problem.message)], Or.inr ⟨_, hd, ?_⟩⟩
    rw [hask]
    rfl

lemma asks_soroban (host : Host) : Asks host (s.askSoroban hash) (s.question hash .soroban)
    (sorobanDecision host.reader s.confirmation) := by
  intro k j
  have hask : s.askSoroban hash k host j = _ := Net.bind_of_ok
    (Client.outcome_call_of_never rfl false (s.question hash .soroban k)
      "Soroban getTransaction" host j)
  rcases sorobanDecision_of_answer host.reader s.confirmation (s.question hash .soroban k)
    "Soroban getTransaction" (host.server j.requests (s.question hash .soroban k))
    with ⟨v, ha, hd⟩ | ⟨problem, ha, hd⟩
  · rw [ha] at hask
    refine ⟨[], Or.inl ?_⟩
    rw [hask, hd, List.map_nil, List.append_nil]
    rfl
  · rw [ha] at hask
    refine ⟨[.note part .debug ("Soroban RPC poll for " ++ hash ++ " failed: "
      ++ problem.message)], Or.inl ?_⟩
    rw [hask, hd]
    rfl

end WalletSettings

end StellarWallet
