import StellarWallet.Proofs.Http.Attempts

/-!
The reply that ends a call.

A call sends one request, perhaps several times. Once a reply to it brings a value the call ends
with that value, so the last reply alone tells what a successful call returned.
-/

namespace StellarWallet

/-- The value that a reply brings; a failing status and a body that cannot be read bring none. -/
def Reply.value? (reader : Json.Reader) : Reply → Option Value
  | .failure _ => none
  | .answer status body _ => if 400 ≤ status ∧ status < 600 then none else reader.read? body

/-- A reply says that there is no such thing. -/
def Reply.IsMissing (reply : Reply) : Prop := ∃ body reason, reply = .answer 404 body reason

/-- A reply tells of something, or that it is missing. -/
def Reply.IsKnown (reader : Json.Reader) (reply : Reply) : Prop :=
  reply.IsMissing ∨ ∃ v, reply.value? reader = some v

variable {reader : Json.Reader}

lemma Reply.IsMissing.value?_eq {reply : Reply} (h : reply.IsMissing) :
    reply.value? reader = none := by
  obtain ⟨body, reason, rfl⟩ := h
  rfl

namespace Net

variable {ε δ α β : Type}

/-- The reply to the last request that a program sends, `none` if it sends none. -/
def lastReply (p : Net ε α) (host : Host) (j : Journal) : Option Reply :=
  let sent := ((p host j).2.since j).requests
  sent.getLast?.map fun request => host.server (j.requests ++ sent.dropLast) request

lemma lastReply_of_append {p : Net ε α} {host : Host} {j events : Journal}
    (h : (p host j).2 = j ++ events) : p.lastReply host j
      = events.requests.getLast?.map fun request =>
          host.server (j.requests ++ events.requests.dropLast) request := by
  have hsince : (p host j).2.since j = events := by
    rw [h, Journal.since, List.drop_left]
  rw [lastReply, hsince]

/-- The last reply to a request that is repeated. -/
lemma lastReply_of_repeated {p : Net ε α} {host : Host} {j events : Journal}
    {request : Request} {delays : List Number} (h : (p host j).2 = j ++ events)
    (htraffic : events.traffic = Journal.repeated request delays) : p.lastReply host j
      = some (host.server (j.requests ++ List.replicate delays.length request) request) := by
  rw [lastReply_of_append h, Journal.requests_of_traffic _ _ htraffic, List.replicate_succ',
    List.getLast?_concat, List.dropLast_concat]
  rfl

lemma lastReply_of_silent {p : Net ε α} {host : Host} {j : Journal}
    (h : (p host j).2 = j) : p.lastReply host j = none :=
  lastReply_of_append (h.trans (List.append_nil j).symm)

/-- What a program does besides sending requests does not count. -/
lemma lastReply_congr {p : Net ε α} {q : Net δ β} {host : Host} {j events more : Journal}
    (hp : (p host j).2 = j ++ events) (hq : (q host j).2 = j ++ events ++ more)
    (hmore : more.requests = []) : q.lastReply host j = p.lastReply host j := by
  rw [List.append_assoc] at hq
  rw [lastReply_of_append hp, lastReply_of_append hq, Journal.requests_append, hmore,
    List.append_nil]

end Net

namespace Client

lemma value_of_isMissing {url : String} {reply : Reply} (h : reply.IsMissing) :
    value reader true url reply = .ok .null := by
  obtain ⟨body, reason, rfl⟩ := h
  rfl

lemma toOption_value (url : String) (reply : Reply) :
    (value reader false url reply).toOption = reply.value? reader := by
  cases reply with
  | failure fault => rfl
  | answer status body reason =>
    rw [value, Reply.value?, if_neg (by simp)]
    split
    · rfl
    · rw [Json.Reader.read?]
      cases reader.read body <;> rfl

lemma value_of_value? {reply : Reply} {v : Value} (h : reply.value? reader = some v)
    (optional : Bool) (url : String) : value reader optional url reply = .ok v := by
  cases reply with
  | failure fault => cases h
  | answer status body reason =>
    rw [Reply.value?] at h
    split at h
    · cases h
    · next hs =>
      have hfound : ¬ (optional = true ∧ status = 404) := by omega
      rw [value, if_neg hfound, if_neg hs]
      rw [Json.Reader.read?] at h
      cases hread : reader.read body with
      | ok w =>
        rw [hread] at h
        cases h
        rfl
      | error fault =>
        rw [hread] at h
        cases h

/-- Running a call adds to the journal, and a last reply with a value gives the result. -/
lemma call_spec (c : Client) (optional : Bool) (request : Request) (context : String)
    (host : Host) (j : Journal) :
    (∃ events, (c.call optional request context host j).2 = j ++ events) ∧
      ∀ reply v, (c.call optional request context).lastReply host j = some reply →
        value host.reader optional request.url reply = .ok v →
        (c.call optional request context host j).1 = .ok v := by
  rw [call]
  split
  · refine ⟨⟨[], (List.append_nil j).symm⟩, ?_⟩
    intro reply v hlast
    rw [Net.lastReply_of_silent rfl] at hlast
    cases hlast
  · obtain ⟨events, delays, hevents, htraffic, -, -, hends⟩ :=
      attempts_spec c host optional request context c.retry.maxRetries.toNat 0 j
    refine ⟨⟨events, hevents⟩, ?_⟩
    intro reply v hlast hv
    rw [Net.lastReply_of_repeated hevents htraffic] at hlast
    cases hlast
    exact hends.eq_ok hv

lemma value_eq_ok_iff {url : String} {reply : Reply} :
    (∃ v, value reader true url reply = .ok v) ↔ reply.IsKnown reader := by
  constructor
  · rintro ⟨v, hv⟩
    cases reply with
    | failure fault => cases hv
    | answer status body reason =>
      by_cases hs : status = 404
      · exact Or.inl ⟨body, reason, by rw [hs]⟩
      · refine Or.inr ⟨v, ?_⟩
        rw [value, if_neg (fun h => hs h.2)] at hv
        rw [Reply.value?]
        split at hv
        · cases hv
        · next hstatus =>
          rw [if_neg hstatus, Json.Reader.read?]
          cases hread : reader.read body with
          | ok w =>
            rw [hread] at hv
            exact congrArg some (Except.ok.inj hv)
          | error fault =>
            rw [hread] at hv
            cases hv
  · rintro (h | ⟨v, hv⟩)
    · exact ⟨_, value_of_isMissing h⟩
    · exact ⟨v, value_of_value? hv true url⟩

end Client

end StellarWallet
