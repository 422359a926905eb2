import StellarWallet.Json.Reader
import StellarWallet.Log.Record

/-!
Requests, replies, and programs that exchange them with a server.

A server is any function from the requests sent so far and the next one to a reply. A program is
run on a host, which has a server, and leaves a journal of all it did, in order; the journal stays
when the program fails.
-/

namespace StellarWallet

inductive Method where
  | get
  | post
  deriving DecidableEq, Repr

def Method.name : Method → String
  | .get => "GET"
  | .post => "POST"

/-- How long to wait for a connection, and for an answer. -/
structure Timeouts where
  connect : Number := .real (.ofInt 5)
  read : Number := .real (.ofInt 15)
  deriving DecidableEq

/-- The timeouts as a value. -/
def Timeouts.toValue (t : Timeouts) : Value := .list [.number t.connect, .number t.read]

structure Request where
  method : Method
  url : String
  timeout : Value
  /-- Parameters, headers and body, by name. -/
  options : List (String × Value) := []

inductive Reply where
  /-- An answer, perhaps with a phrase that says what its status means. -/
  | answer (status : Int) (body : String) (reason : Option String := none)
  | failure (fault : Fault)
  deriving DecidableEq, Repr

/-- The reply to a request, given all requests before it. -/
abbrev Server := List Request → Request → Reply

/-- When a program ends that runs beside two others, one after the other. -/
inductive Schedule where
  /-- Before both. Where it fails, `goesOn` tells whether the second of them is still started. -/
  | first (goesOn : Bool)
  /-- Between them. -/
  | second
  /-- After both. -/
  | last
  deriving DecidableEq, Repr

/-- What a count of nanoseconds fails with as the length of a pause: the clock keeps it in 64 bits,
and it may not be negative. -/
def pauseFault (fits negative : Bool) : Option Fault :=
  if !fits then some ⟨.overflow, "timestamp too large to convert to C _PyTime_t"⟩
  else if negative then some ⟨.invalidValue, "sleep length must be non-negative"⟩
  else none

/-- How many nanoseconds the clock of the system can count, in either direction. -/
def clockBound : Int := 9223372036854775808

/-- What the clock of the system refuses a pause with. -/
def clockRefusal : Number → Option Fault
  | .whole n =>
    let nanos := n * 1000000000
    pauseFault (-clockBound ≤ nanos && nanos < clockBound) (n < 0)
  | .real .nan => some ⟨.invalidValue, "Invalid value NaN (not a number)"⟩
  | .real x =>
    let nanos := x.mul (.ofInt 1000000000)
    pauseFault (!nanos.lt (.ofInt (-clockBound)) && nanos.lt (.ofInt clockBound))
      (nanos.lt (.zero false))

/-- What programs run on. -/
structure Host where
  server : Server
  /-- What a pause that stops the program fails with. -/
  refusal : Number → Option Fault := clockRefusal
  schedule : Schedule := .last
  reader : Json.Reader := .standard

/-- What a program did. -/
inductive NetEvent where
  | sent (request : Request)
  /-- A failed attempt, counted from one, is about to be repeated after a delay. -/
  | retried (attempt : Nat) (fault : Fault) (delay : Number)
  | slept (delay : Number)
  | noted (record : LogRecord)

abbrev Journal := List NetEvent

namespace Journal

def requests (j : Journal) : List Request :=
  j.filterMap fun
    | .sent r => some r
    | _ => none

def sleeps (j : Journal) : List Number :=
  j.filterMap fun
    | .slept d => some d
    | _ => none

def retries (j : Journal) : List (Nat × Fault × Number) :=
  j.filterMap fun
    | .retried n f d => some (n, f, d)
    | _ => none

def records (j : Journal) : List LogRecord :=
  j.filterMap fun
    | .noted r => some r
    | _ => none

/-- What came after an earlier state of the journal. -/
def since (j earlier : Journal) : Journal := j.drop earlier.length

end Journal

/-- A program that talks to a server and may fail with an `ε`. -/
def Net (ε α : Type) : Type := Host → Journal → Except ε α × Journal

namespace Net

variable {ε δ α β : Type}

def pure (a : α) : Net ε α := fun _ j => (.ok a, j)

def fail (e : ε) : Net ε α := fun _ j => (.error e, j)

def bind (p : Net ε α) (f : α → Net ε β) : Net ε β := fun host j =>
  match p host j with
  | (.ok a, j) => f a host j
  | (.error e, j) => (.error e, j)

instance : Monad (Net ε) where
  pure := Net.pure
  bind := Net.bind

/-- Runs a program and hands on its outcome, which does not fail any more. -/
def outcome (p : Net ε α) : Net δ (Except ε α) := fun host j =>
  let (r, j) := p host j
  (.ok r, j)

/-- Fails with an error, or goes on. -/
def ofExcept : Except ε α → Net ε α
  | .ok a => Net.pure a
  | .error e => fail e

def mapError (f : ε → δ) (p : Net ε α) : Net δ α := fun host j =>
  match p host j with
  | (.ok a, j) => (.ok a, j)
  | (.error e, j) => (.error (f e), j)

def record (e : NetEvent) : Net ε Unit := fun _ j => (.ok (), j ++ [e])

def note (part : String) (level : LogLevel) (message : String) : Net ε Unit :=
  record (.noted (.note part level message))

/-- The host that the program runs on. -/
def host : Net ε Host := fun host j => (.ok host, j)

/-- A pause that lets others run. -/
def pause (delay : Number) : Net ε Unit := record (.slept delay)

/-- A pause that stops the program, if the host takes one of this length. -/
def sleep (delay : Number) : Net Fault Unit := fun host j =>
  match host.refusal delay with
  | some fault => (.error fault, j)
  | none => (.ok (), j ++ [.slept delay])

/-- Sends a request and waits for the reply. -/
def send (request : Request) : Net ε Reply := fun host j =>
  (.ok (host.server j.requests request), j ++ [.sent request])

end Net

end StellarWallet
