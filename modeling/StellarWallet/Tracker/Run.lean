import StellarWallet.Time
import StellarWallet.Tracker.Call

/-!
Runs of a tracker: any number of calls whose steps follow each other in any order, with all else
that may happen in between.

A run draws identifiers and timestamps as it goes. The calls of a run are known by their position in
the order of their starts; a step for a call that was never started changes nothing.
-/

namespace StellarWallet

structure TrackerRun where
  tracker : Tracker
  calls : List Call := []
  now : Instant
  /-- How many identifiers have been drawn. -/
  drawn : Nat := 0

/-- What may happen to a tracker. -/
inductive TrackerStep where
  | start (info : TxMeta)
  | setPhase (call : Nat) (phase : TxPhase)
  | finishWork (call : Nat) (ending : Ending WorkResult)
  | finishConfirmation (call : Nat) (ending : Ending Unit)
  | dismiss (id : String)
  | append (draft : Draft)
  | clear
  | subscribe (listener : Listener)
  | unsubscribe (key : Nat)
  | setClock (now : Instant)
  /-- From now on writes of the history are refused with a fault, or granted again. -/
  | refuseWrites (fault : Option Fault)

namespace TrackerRun

/-- The identifier that is drawn next. -/
def nextId (r : TrackerRun) : String := r.now.identifier (r.drawn + 1)

def timestamp (r : TrackerRun) : String := r.now.timestamp

/-- Starts tracking a transaction. -/
def start (r : TrackerRun) (info : TxMeta) : TrackerRun :=
  let (c, tracker) := Call.start r.tracker info r.nextId r.timestamp
  { r with tracker, calls := r.calls ++ [c], drawn := r.drawn + 1 }

/-- Lets one call go on. -/
def onCall (r : TrackerRun) (call : Nat) (f : Call → Tracker → Call × Tracker) : TrackerRun :=
  match r.calls[call]? with
  | some c =>
    let (c, tracker) := f c r.tracker
    { r with tracker, calls := r.calls.set call c }
  | none => r

/-- Sets what writes of the history are refused with. -/
def refuseWrites (r : TrackerRun) (fault : Option Fault) : TrackerRun :=
  let history := r.tracker.history
  let storage := { history.storage with refusal := fault }
  { r with tracker := { r.tracker with history := { history with storage } } }

/-- Records a draft. -/
def append (r : TrackerRun) (d : Draft) : Except Fault HistoryEntry × TrackerRun :=
  let (outcome, tracker) := r.tracker.append d r.nextId r.timestamp
  (outcome, { r with tracker, drawn := r.drawn + 1 })

def step (r : TrackerRun) : TrackerStep → TrackerRun
  | .start info => r.start info
  | .setPhase call phase => r.onCall call fun c t => c.setPhase t phase
  | .finishWork call ending => r.onCall call fun c t => c.finishWork t ending
  | .finishConfirmation call ending => r.onCall call fun c t => c.finishConfirmation t ending
  | .dismiss id => { r with tracker := (r.tracker.dismiss id).2 }
  | .append draft => (r.append draft).2
  | .clear => { r with tracker := r.tracker.clear.2 }
  | .subscribe listener => { r with tracker := r.tracker.subscribe listener }
  | .unsubscribe key => { r with tracker := r.tracker.unsubscribe key }
  | .setClock now => { r with now }
  | .refuseWrites fault => r.refuseWrites fault

/-- The run after a sequence of steps. -/
def steps (r : TrackerRun) (ss : List TrackerStep) : TrackerRun := ss.foldl step r

end TrackerRun

end StellarWallet
