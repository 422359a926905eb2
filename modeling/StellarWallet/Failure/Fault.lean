/-!
Faults: what goes wrong in code that the wallet calls or runs.

A fault has a kind, which decides how it is handled, and a message. The kinds of a failed exchange
with a server fall into families; `isTimeout`, `isConnection` and `isInvalid` name them.

The lemmas at the start take apart what is computed from a result that may be a fault.
-/

namespace StellarWallet

section

variable {ε α β : Type} {x : Except ε α} {f : α → Except ε β} {e : ε} {b : β}

theorem ok_bind (a : α) (f : α → Except ε β) : (Except.ok a >>= f) = f a := rfl

theorem bind_eq_ok (h : x >>= f = .ok b) : ∃ a, x = .ok a ∧ f a = .ok b := by
  cases x with
  | error e => cases h
  | ok a => exact ⟨a, rfl, h⟩

theorem bind_eq_error (h : x >>= f = .error e) :
    x = .error e ∨ ∃ a, x = .ok a ∧ f a = .error e := by
  cases x with
  | error e' =>
    cases h
    exact Or.inl rfl
  | ok a => exact Or.inr ⟨a, rfl, h⟩

theorem map_eq_ok {g : α → β} (h : x.map g = .ok b) : ∃ a, x = .ok a ∧ g a = b := by
  cases x with
  | error e => cases h
  | ok a => exact ⟨a, rfl, Except.ok.inj h⟩

end

/-- The class of a failed request. -/
inductive NetworkErrorType where
  | timeout
  | connection
  | http
  | invalidResponse
  | unknown
  deriving DecidableEq, Repr

def NetworkErrorType.name : NetworkErrorType → String
  | .timeout => "timeout"
  | .connection => "connection_error"
  | .http => "http_error"
  | .invalidResponse => "invalid_response"
  | .unknown => "unknown"

/-- What a server answered beside a failing status. -/
structure ErrorResponse where
  status : Int
  text : String
  deriving DecidableEq, Repr

inductive FaultKind where
  /-- No kind of its own. -/
  | general
  | runtime
  | invalidValue
  | wrongType
  | missingKey
  | missingAttribute
  | overflow
  | zeroDivision
  /-- The operating system refused. -/
  | system
  | isDirectory
  | notDirectory
  | missingFile
  | existingFile
  | brokenConnection
  | expired
  /-- Something goes deeper than the interpreter does. -/
  | recursion
  /-- A tracked transaction failed; the message is its reason. -/
  | transaction
  | confirmation
  | configuration
  | balanceQuery
  /-- A request failed for good. -/
  | network (type : NetworkErrorType) (status : Option Int) (text : Option String)
  | timeout
  | readTimeout
  | connectTimeout
  | connection
  | tls
  | proxy
  | http (response : Option ErrorResponse)
  | invalidUrl
  | missingScheme
  | invalidScheme
  | invalidHeader
  | undecodableBody
  | tooManyRedirects
  | chunkedEncoding
  | contentDecoding
  | request
  | urlRequired
  | retries
  | streamConsumed
  | unrewindableBody
  deriving DecidableEq, Repr

structure Fault where
  kind : FaultKind
  message : String
  deriving DecidableEq, Repr

/-- A JSON text whose lists and objects go deeper than the interpreter does. -/
def Fault.tooDeep (what : String) : Fault :=
  ⟨.recursion, "maximum recursion depth exceeded while decoding a JSON " ++ what
    ++ " from a unicode string"⟩

namespace FaultKind

def isTimeout : FaultKind → Bool
  | .timeout | .readTimeout | .connectTimeout => true
  | _ => false

def isConnection : FaultKind → Bool
  | .connection | .connectTimeout | .tls | .proxy => true
  | _ => false

/-- Kinds that say that a value is malformed. -/
def isInvalid : FaultKind → Bool
  | .invalidValue | .invalidUrl | .missingScheme | .invalidScheme | .invalidHeader
  | .undecodableBody => true
  | _ => false

/-- Kinds that a failed exchange with a server may have. -/
def isTransport : FaultKind → Bool
  | .timeout | .readTimeout | .connectTimeout | .connection | .tls | .proxy | .http _ | .invalidUrl
  | .missingScheme | .invalidScheme | .invalidHeader | .undecodableBody | .tooManyRedirects
  | .chunkedEncoding | .contentDecoding | .request | .urlRequired | .retries | .streamConsumed
  | .unrewindableBody => true
  | _ => false

/-- Kinds that come from the operating system, exchanges with a server included. -/
def isSystem : FaultKind → Bool
  | .system | .isDirectory | .notDirectory | .missingFile | .existingFile | .brokenConnection
  | .expired => true
  | k => k.isTransport

end FaultKind

end StellarWallet
