import StellarWallet.Log.Context
import StellarWallet.Log.Settings
import StellarWallet.Storage.Tree

/-!
Logging as a state: where lines go, from which level on, and what has been written.

The first setup decides, and later ones count only when forced. A setup sets the level and drops the
old targets before it looks for its file, so one that fails leaves no target. Only records of the
wallet's own loggers are written, each as one line to every target whose encoding has all of its
characters; the other targets drop it.
-/

namespace StellarWallet

inductive LogTarget where
  | file (place : PathParts)
  | console
  deriving DecidableEq, Repr

structure LogSink where
  target : LogTarget
  format : LogFormat
  deriving DecidableEq, Repr

structure Logging where
  /-- The files and folders. -/
  tree : FileTree := .empty
  /-- What was written to the console. -/
  console : String := ""
  level : Option LogLevel := none
  sinks : List LogSink := []
  /-- A setup has succeeded. -/
  ready : Bool := false
  /-- The characters that the encoding of a target has. -/
  encodes : LogTarget → Char → Bool := fun _ _ => true

namespace Logging

/-- The loggers of the wallet. -/
def rootLogger : String := "arena_wallet"

def covers (logger : String) : Bool :=
  logger = rootLogger || (rootLogger ++ ".").toList.isPrefixOf logger.toList

/-- The level from which on a logger makes records: that of the last setup for those of the wallet,
and warnings for any other and before any setup. -/
def threshold (l : Logging) (logger : String) : LogLevel :=
  if covers logger then l.level.getD .warning else .warning

/-- Opens the file of the settings, with the folders on the way to it. -/
def openFile (tree : FileTree) (env : Environment) (s : LogSettings) :
    Except Fault PathParts × FileTree :=
  match s.folder env with
  | .error fault => (.error fault, tree)
  | .ok folder =>
    match tree.needFolders folder.parts with
    | (.error fault, tree) => (.error fault.toFault, tree)
    | (.ok (), tree) =>
      match tree.needFile (folder.join (Path.ofText s.fileName)).parts with
      | .error fault => (.error fault.toFault, tree)
      | .ok (place, tree) => (.ok place, tree)

/-- The sinks for targets. -/
def sinksOf (s : LogSettings) (place : Option PathParts) : List LogSink :=
  (place.map fun p => ⟨.file p, s.format⟩).toList
    ++ if s.toConsole then [⟨.console, s.format⟩] else []

/-- The state in which a setup has begun. -/
def begin (l : Logging) (s : LogSettings) : Logging := { l with level := some s.level, sinks := [] }

/-- Carries out a setup. -/
def apply (l : Logging) (env : Environment) (s : LogSettings) : Except Fault Unit × Logging :=
  if s.toFile then
    match openFile l.tree env s with
    | (.error fault, tree) => (.error fault, { l.begin s with tree })
    | (.ok place, tree) =>
      (.ok (), { l.begin s with tree, sinks := sinksOf s (some place), ready := true })
  else (.ok (), { l.begin s with sinks := sinksOf s none, ready := true })

/-- Sets up logging, by default as the environment asks for it. -/
def setup (l : Logging) (env : Environment) (given : Option LogSettings) (force : Bool) :
    Except Fault Unit × Logging :=
  if l.ready && !force then (.ok (), l)
  else match (given.map Except.ok).getD (LogSettings.ofEnvironment env) with
    | .error fault => (.error fault, l)
    | .ok s => l.apply env s

/-- Adds a line to one target. -/
def addLine (l : Logging) (line : String) : LogTarget → Logging
  | .file place => { l with tree := l.tree.append place line }
  | .console => { l with console := l.console ++ line }

/-- Writes a record to one target, which drops it if it cannot write its line. -/
def emit (now : Instant) (r : LogRecord) (l : Logging) (sink : LogSink) : Logging :=
  let line := sink.format.line now r ++ "\n"
  if line.toList.all (l.encodes sink.target) then l.addLine line sink.target else l

/-- Writes a record to all targets. -/
def write (l : Logging) (now : Instant) (r : LogRecord) : Logging :=
  l.sinks.foldl (emit now r) l

/-- Carries out a call of a logger. A call below the level does nothing at all. -/
def log (l : Logging) (now : Instant) (c : LogCall) : Except Fault Unit × Logging :=
  if c.level.rank < (l.threshold c.logger).rank then (.ok (), l)
  else match c.record? with
    | .error fault => (.error fault, l)
    | .ok none => (.ok (), l)
    | .ok (some r) => (.ok (), if covers c.logger then l.write now r else l)

end Logging

end StellarWallet
