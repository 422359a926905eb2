import Mathlib.Tactic.Common
import StellarWallet.Http.Client

/-!
Calls of a client that never repeats a request.

Such a call sends its request once and reports what the reply comes to.
-/

namespace StellarWallet

namespace Journal

@[simp] lemma requests_append (j k : Journal) :
    requests (j ++ k) = j.requests ++ requests k := List.filterMap_append

@[simp] lemma sleeps_append (j k : Journal) : sleeps (j ++ k) = j.sleeps ++ sleeps k :=
  List.filterMap_append

@[simp] lemma requests_nil : requests [] = [] := rfl

@[simp] lemma sleeps_nil : sleeps [] = [] := rfl

@[simp] lemma requests_sent (r : Request) (j : Journal) :
    requests (.sent r :: j) = r :: j.requests := rfl

@[simp] lemma sleeps_sent (r : Request) (j : Journal) : sleeps (.sent r :: j) = j.sleeps := rfl

@[simp] lemma requests_slept (d : Number) (j : Journal) :
    requests (.slept d :: j) = j.requests := rfl

@[simp] lemma sleeps_slept (d : Number) (j : Journal) :
    sleeps (.slept d :: j) = d :: j.sleeps := rfl

@[simp] lemma requests_noted (r : LogRecord) (j : Journal) :
    requests (.noted r :: j) = j.requests := rfl

@[simp] lemma sleeps_noted (r : LogRecord) (j : Journal) :
    sleeps (.noted r :: j) = j.sleeps := rfl

@[simp] lemma requests_map_noted (records : List LogRecord) :
    requests (records.map NetEvent.noted) = [] := by
  induction records with
  | nil => rfl
  | cons r rs ih => exact ih

@[simp] lemma sleeps_map_noted (records : List LogRecord) :
    sleeps (records.map NetEvent.noted) = [] := by
  induction records with
  | nil => rfl
  | cons r rs ih => exact ih

end Journal

namespace Net

variable {ε α β : Type}

lemma bind_of_ok {p : Net ε α} {f : α → Net ε β} {host : Host} {j j' : Journal} {a : α}
    (h : p host j = (.ok a, j')) : (p >>= f) host j = f a host j' := by
  change Net.bind p f host j = _
  rw [Net.bind, h]

lemma bind_of_error {p : Net ε α} {f : α → Net ε β} {host : Host} {j j' : Journal} {e : ε}
    (h : p host j = (.error e, j')) : (p >>= f) host j = (.error e, j') := by
  change Net.bind p f host j = _
  rw [Net.bind, h]

lemma send_eq (request : Request) (host : Host) (j : Journal) :
    (send request : Net ε Reply) host j
      = (.ok (host.server j.requests request), j ++ [.sent request]) := rfl

lemma host_eq (host : Host) (j : Journal) : (Net.host : Net ε Host) host j = (.ok host, j) := rfl

end Net

namespace Client

/-- An endpoint that starts with a slash is joined to the base as it is. -/
lemma url_of_head (c : Client) {endpoint : String} (h : endpoint.toList.head? = some '/') :
    c.url endpoint = c.base ++ endpoint := by
  obtain ⟨r, hr⟩ := List.head?_eq_some_iff.1 h
  have hrelative : isAbsolute endpoint = false := by
    rw [isAbsolute, hr]
    rfl
  have hne : endpoint ≠ "" := by
    rintro rfl
    cases hr
  rw [url, hrelative, if_neg (by decide), if_neg hne, if_pos h]

/-- What the reply to a single attempt comes to. -/
def answer (reader : Json.Reader) (optional : Bool) (request : Request) (context : String)
    (reply : Reply) : Except ClientFault Value :=
  match value reader optional request.url reply with
  | .ok v => .ok v
  | .error fault => .error (.network (.ofFault fault request.url context))

lemma call_of_never {c : Client} (h : c.retry = .never) (optional : Bool) (request : Request)
    (context : String) (host : Host) (j : Journal) :
    c.call optional request context host j
      = (answer host.reader optional request context (host.server j.requests request),
        j ++ [.sent request]) := by
  have hc : c.call optional request context = c.attempts optional request context 0 0 := by
    rw [call, h]
    rfl
  rw [hc, attempts, Net.bind_of_ok (Net.send_eq request host j),
    Net.bind_of_ok (Net.host_eq host _), answer]
  cases value host.reader optional request.url (host.server j.requests request) with
  | ok v => rfl
  | error fault => rfl

lemma outcome_call_of_never {ε : Type} {c : Client} (h : c.retry = .never) (optional : Bool)
    (request : Request) (context : String) (host : Host) (j : Journal) :
    ((c.call optional request context).outcome : Net ε (Except ClientFault Value)) host j
      = (.ok (answer host.reader optional request context (host.server j.requests request)),
        j ++ [.sent request]) := by
  rw [Net.outcome, call_of_never h]

end Client

end StellarWallet
