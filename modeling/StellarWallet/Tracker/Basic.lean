import StellarWallet.History.Basic
import StellarWallet.Tracker.WorkResult

/-!
The tracker: the toasts on show, the history, and who is told about changes of either.

A toast shows a transaction as it would be recorded now. There are at most `maxToasts` of them, the
newest first. Listeners are told in the order in which they subscribed; one that fails does not
keep the others from being told.
-/

namespace StellarWallet

structure Toast where
  title : String
  entry : HistoryEntry

/-- The toast with an entry in place of its own, if both have one identifier. -/
def Toast.update (e : HistoryEntry) (x : Toast) : Toast :=
  if x.entry.id = e.id then { x with entry := e } else x

inductive TrackerEvent where
  | toastsChanged
  | historyChanged
  deriving DecidableEq, Repr

def TrackerEvent.name : TrackerEvent → String
  | .toastsChanged => "toasts_changed"
  | .historyChanged => "history_changed"

/-- Which listeners were told what, the oldest first. -/
abbrev Deliveries := List (Nat × TrackerEvent)

/-- Code that is told about changes. The key says which code it is. -/
structure Listener where
  key : Nat
  /-- It ends its subscription when it is called. -/
  once : Bool := false
  /-- What it fails with when it is told about an event, after all that was told before. -/
  fault? : Deliveries → TrackerEvent → Option Fault := fun _ _ => none

structure Tracker where
  history : History
  links : ExplorerLinks
  maxToasts : Int := 6
  toasts : List Toast := []
  listeners : List Listener := []
  delivered : Deliveries := []
  /-- What was noted about listeners that failed, the oldest first. -/
  complaints : List LogRecord := []

namespace Tracker

/-- The listeners after the one with a key has ended one subscription of its. -/
def dropListener (key : Nat) : List Listener → List Listener
  | [] => []
  | l :: r => if l.key = key then r else l :: dropListener key r

def subscribe (t : Tracker) (l : Listener) : Tracker := { t with listeners := t.listeners ++ [l] }

def unsubscribe (t : Tracker) (key : Nat) : Tracker :=
  { t with listeners := dropListener key t.listeners }

/-- Calls a listener. -/
def call (t : Tracker) (event : TrackerEvent) (l : Listener) : Except Fault Unit × Tracker :=
  let told := { t with delivered := t.delivered ++ [(l.key, event)] }
  let outcome := match l.fault? t.delivered event with
    | some fault => .error fault
    | none => .ok ()
  (outcome, if l.once then told.unsubscribe l.key else told)

/-- What is noted about a listener that failed. -/
def listenerNote (event : TrackerEvent) (fault : Fault) : LogRecord :=
  .note "features.transactions.tracker" .error
    ("Error in tracker listener for " ++ event.name ++ ": " ++ fault.message)

/-- Tells one listener. A fault of it goes no further. -/
def deliver (event : TrackerEvent) (t : Tracker) (l : Listener) : Tracker :=
  match t.call event l with
  | (.ok (), t) => t
  | (.error fault, t) => { t with complaints := t.complaints ++ [listenerNote event fault] }

/-- Tells all listeners that are subscribed now. -/
def notify (t : Tracker) (event : TrackerEvent) : Tracker := t.listeners.foldl (deliver event) t

/-- Shows a transaction as it would be recorded now, if its toast is still there. -/
def refresh (t : Tracker) (e : HistoryEntry) : Tracker :=
  if t.toasts.any (·.entry.id = e.id) then
    { t with toasts := t.toasts.map (Toast.update e) }.notify .toastsChanged
  else t

/-- Shows a new toast. -/
def present (t : Tracker) (x : Toast) : Tracker :=
  { t with toasts := atMost t.maxToasts (x :: t.toasts) }.notify .toastsChanged

/-- Takes a toast away; the answer says whether it was there. -/
def dismiss (t : Tracker) (id : String) : Bool × Tracker :=
  if t.toasts.any (·.entry.id = id) then
    (true, { t with toasts := t.toasts.filter (·.entry.id ≠ id) }.notify .toastsChanged)
  else (false, t)

/-- Records an entry. -/
def commit (t : Tracker) (e : HistoryEntry) : Except Fault Unit × Tracker :=
  match t.history.push e with
  | (.ok (), history) => (.ok (), { t with history }.notify .historyChanged)
  | (.error fault, history) => (.error fault, { t with history })

/-- Drops the history. -/
def clear (t : Tracker) : Except Fault Unit × Tracker :=
  match t.history.clear with
  | (.ok _, history) => (.ok (), { t with history }.notify .historyChanged)
  | (.error fault, history) => (.error fault, { t with history })

end Tracker

/-- A transaction to record without tracking it. -/
structure Draft where
  direction : TxDirection
  asset : Asset
  amount : Number
  kind : TxKind := .classic
  status : TxStatus := .pending
  hash : Option String := none
  reason : Option String := none

namespace Draft

def optionalText (s : Option String) : Value := (s.map Value.text).getD .null

/-- The entry of a draft; it has a link if it has a hash. -/
def entry (d : Draft) (links : ExplorerLinks) (id timestamp : String) : HistoryEntry :=
  { id, kind := .known d.kind, direction := d.direction, asset := d.asset, amount := d.amount
    status := d.status, timestamp
    hash := optionalText d.hash
    link := optionalText ((d.hash.filter (· ≠ "")).map (links.link d.kind))
    reason := optionalText d.reason }

end Draft

/-- Records a draft. -/
def Tracker.append (t : Tracker) (d : Draft) (id timestamp : String) :
    Except Fault HistoryEntry × Tracker :=
  let e := d.entry t.links id timestamp
  let (outcome, t) := t.commit e
  (outcome.map fun _ => e, t)

end StellarWallet
