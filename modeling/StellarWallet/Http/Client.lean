import StellarWallet.Explorer
import StellarWallet.Http.Exchange
import StellarWallet.Http.Retry
import StellarWallet.Json.Reader

/-!
A client that reads JSON replies and repeats requests that may pass.

Endpoints are joined to a base unless they are absolute. All attempts of a call send the same
request; the last fault decides how the call fails.
-/

namespace StellarWallet

/-- A request that failed for good. -/
structure NetworkFailure where
  type : NetworkErrorType
  message : String
  status : Option Int := none
  text : Option String := none
  deriving DecidableEq, Repr

namespace NetworkFailure

/-- The server has no such thing. -/
def isNotFound (f : NetworkFailure) : Bool := f.status = some 404

def toFault (f : NetworkFailure) : Fault := ⟨.network f.type f.status f.text, f.message⟩

/-- The class of a fault; a failed connection that timed out counts as a timeout. -/
def classify (kind : FaultKind) : NetworkErrorType :=
  if kind.isTimeout then .timeout
  else if kind.isConnection then .connection
  else match kind with
    | .http _ => .http
    | k => if k.isInvalid then .invalidResponse else .unknown

/-- What is said before a message about a call. -/
def contextPart (context : String) : String := if context = "" then "" else context ++ ": "

/-- The failure of a call whose last attempt had a fault. -/
def ofFault (fault : Fault) (url context : String) : NetworkFailure :=
  let start := contextPart context
  match classify fault.kind with
  | .timeout => ⟨.timeout, start ++ "Request timed out: " ++ url, none, none⟩
  | .connection =>
    ⟨.connection, start ++ "Cannot connect to " ++ url ++ ". Check your network connection.",
      none, none⟩
  | .http =>
    let response := match fault.kind with
      | .http r => r
      | _ => none
    let status := response.map (·.status)
    let text := response.map (·.text)
    let shown := match text with
      | some t => if t = "" then "Unknown error" else t
      | none => "Unknown error"
    ⟨.http, start ++ "HTTP error " ++ (status.map toString).getD "None" ++ ": " ++ shown,
      status, text⟩
  | .invalidResponse => ⟨.invalidResponse, start ++ "Invalid JSON response from " ++ url, none, none⟩
  | .unknown => ⟨.unknown, start ++ "Network error: " ++ fault.message, none, none⟩

end NetworkFailure

def ArithmeticFault.toFault : ArithmeticFault → Fault
  | .overflow => ⟨.overflow, ""⟩
  | .zeroDivision => ⟨.zeroDivision, ""⟩

/-- How a call ends without a value. -/
inductive ClientFault where
  | network (failure : NetworkFailure)
  /-- The delay before the next attempt cannot be computed. -/
  | delay (fault : ArithmeticFault)
  /-- The pause before the next attempt is refused. -/
  | sleep (fault : Fault)
  deriving DecidableEq, Repr

def ClientFault.toFault : ClientFault → Fault
  | .network failure => failure.toFault
  | .delay fault => fault.toFault
  | .sleep fault => fault

structure Client where
  base : String
  timeouts : Timeouts := {}
  retry : RetryPolicy := {}

namespace Client

def part : String := "shared.network"

/-- A client over a base; slashes at its end do not count. -/
def ofBase (base : String) (timeouts : Timeouts := {}) (retry : RetryPolicy := {}) : Client :=
  ⟨trimSlashes base, timeouts, retry⟩

def isAbsolute (endpoint : String) : Bool :=
  "http://".toList.isPrefixOf endpoint.toList || "https://".toList.isPrefixOf endpoint.toList

/-- The link of an endpoint. -/
def url (c : Client) (endpoint : String) : String :=
  if isAbsolute endpoint then endpoint
  else if endpoint = "" then c.base
  else if endpoint.toList.head? = some '/' then c.base ++ endpoint
  else c.base ++ "/" ++ endpoint

/-- What a failing status is called. -/
def statusMessage (status : Int) (reason : Option String) (url : String) : String :=
  toString status ++ (if status < 500 then " Client" else " Server") ++ " Error: "
    ++ reason.getD "None" ++ " for url: " ++ url

/-- What reading a body fails with. -/
def bodyFault : Json.ReadFault → Fault
  | .malformed => ⟨.undecodableBody, "Expecting value"⟩
  | .tooDeep what => .tooDeep what

/-- The value of a reply. With `optional`, a reply of status 404 is null. -/
def value (reader : Json.Reader) (optional : Bool) (url : String) : Reply → Except Fault Value
  | .failure fault => .error fault
  | .answer status body reason =>
    if optional ∧ status = 404 then .ok .null
    else if 400 ≤ status ∧ status < 600 then
      .error ⟨.http (some ⟨status, body⟩), statusMessage status reason url⟩
    else (reader.read body).mapError bodyFault

/-- A delay with one place. -/
def delayText (delay : Number) : String :=
  match delay.toBinary64 with
  | .ok x => String.ofList (x.places 1 id)
  | .error _ => delay.text

def retryMessage (url : String) (attempt : Nat) (total : Int) (delay : Number) (fault : Fault) :
    String :=
  "Request to " ++ url ++ " failed (attempt " ++ toString (attempt + 1) ++ "/" ++ toString total
    ++ "), retrying in " ++ delayText delay ++ "s: " ++ fault.message

/-- Attempts of a call, of which `attempt` have failed before and `left` may be added. -/
def attempts (c : Client) (optional : Bool) (request : Request) (context : String) :
    (left attempt : Nat) → Net ClientFault Value
  | left, attempt => do
    let reply ← Net.send request
    match value (← Net.host).reader optional request.url reply with
    | .ok v => return v
    | .error fault =>
      let failed : Net ClientFault Value :=
        Net.fail (.network (.ofFault fault request.url context))
      match left with
      | 0 => failed
      | left + 1 =>
        if c.retry.retries fault then
          let delay ← (Net.ofExcept (c.retry.delay attempt)).mapError .delay
          Net.note part .warning
            (retryMessage request.url attempt (c.retry.maxRetries + 1) delay fault)
          Net.record (.retried (attempt + 1) fault delay)
          (Net.sleep delay).mapError .sleep
          c.attempts optional request context left (attempt + 1)
        else failed

/-- The fault of a call without any attempt. -/
def noAttempt : Fault := ⟨.general, "Unknown error"⟩

/-- Sends a request, with its repetitions. -/
def call (c : Client) (optional : Bool) (request : Request) (context : String) :
    Net ClientFault Value :=
  if c.retry.maxRetries < 0 then
    Net.fail (.network (.ofFault noAttempt request.url context))
  else c.attempts optional request context c.retry.maxRetries.toNat 0

/-- The request of a call; one of its options may be a timeout of its own. -/
def request (c : Client) (method : Method) (endpoint : String)
    (options : List (String × Value)) : Request :=
  ⟨method, c.url endpoint, (Fields.lookup "timeout" options).getD c.timeouts.toValue,
    Fields.erase "timeout" options⟩

/-- The value at an endpoint. -/
def get (c : Client) (endpoint : String) (context : String := "")
    (options : List (String × Value) := []) : Net ClientFault Value :=
  c.call false (c.request .get endpoint options) context

/-- The value at an endpoint, null where the server has none. -/
def getOptional (c : Client) (endpoint : String) (context : String := "")
    (options : List (String × Value) := []) : Net ClientFault Value :=
  c.call true (c.request .get endpoint options) context

/-- The reply to a posted request. -/
def post (c : Client) (endpoint : String) (context : String := "")
    (options : List (String × Value) := []) : Net ClientFault Value :=
  c.call false (c.request .post endpoint options) context

end Client

end StellarWallet
