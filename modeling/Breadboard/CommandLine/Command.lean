/-
  Breadboard.CommandLine.Command — the command from its arguments to its result.

  What a run needs of the world is in its `Inputs`: how opening the log file went, and what
  the settings' file and the sketch's file hold. Of several faults the log file's comes
  first, then the settings', then the sketch's. Settings that were not asked for by path are
  passed over where they are missing or bad. A period given as an argument replaces that of
  the settings, which have to be good all the same.
-/

import Breadboard.CommandLine.Arguments
import Breadboard.CommandLine.Help
import Breadboard.CommandLine.Report
import Breadboard.Settings.Reading

namespace Breadboard.CommandLine

/-- What a run finds once its log file, if it has one, is open. -/
structure Inputs where
  log : Except FileFault Unit := .ok ()
  /-- From the path that was given, otherwise from the user's home. -/
  settings : Except FileFault Text
  sketch : Except FileFault Text

inductive Failure where
  | readSketch (path : Text) (fault : FileFault)
  | logFile (path : Text) (fault : FileFault)
  | settings (path : Text) (error : SettingsError)
  deriving DecidableEq, Repr

/-- The word for a kind of failure. -/
def Failure.kind : Failure → Text
  | readSketch _ _ => "ReadSketch".toList
  | logFile _ _ => "LogFile".toList
  | settings _ (.unreadable _) => "Io".toList
  | settings _ (.malformed _) => "Yaml".toList
  | settings _ (.badTick _) => "InvalidTick".toList

def Failure.message : Failure → Text
  | readSketch path fault =>
    "failed to read sketch '".toList ++ path ++ "': ".toList ++ fault.message
  | logFile path fault =>
    "failed to open log file '".toList ++ path ++ "': ".toList ++ fault.message
  | settings path error => error.message path

/-- What a command comes to. -/
inductive Outcome where
  | printed (stdout : Text)
  | misused (fault : UsageFault)
  | failed (failure : Failure)
  /-- A bench with a loaded sketch, to be run on a screen. -/
  | interactive (bench : Bench) (source : Text) (path : Text) (timestamps : Bool)

namespace Outcome

def exitCode : Outcome → Nat
  | printed _ => 0
  | misused _ => 2
  | failed _ => 1
  | interactive _ _ _ _ => 0

def stdout : Outcome → Text
  | printed t => t
  | _ => []

def failure? : Outcome → Option Failure
  | failed f => some f
  | _ => none

end Outcome

namespace Invocation

/-- The settings of a run, from the file that holds them. -/
def settings (i : Invocation) (file : Except FileFault Text) : Except Failure Settings := do
  let fail := Failure.settings (i.config.getD [])
  let s ←
    match i.config, Settings.ofFile? file with
    | _, .ok s => .ok s
    | some _, .error e => .error (fail e)
    | none, .error _ => .ok {}
  match i.tick with
  | some tick => ({ s with tick } : Settings).validate.mapError fail
  | none => .ok s

/-- A bench with the sketch loaded, as the settings describe it. -/
def setUp (s : Settings) (source : Text) : Bench where
  clock := .new s.tick
  session := (Session.new s.registry s.historyLimit).load source

def run (i : Invocation) (found : Inputs) : Except Failure Outcome := do
  found.log.mapError (.logFile (i.logFile.getD []))
  let settings ← i.settings found.settings
  let source ← found.sketch.mapError (.readSketch i.sketch)
  let bench := setUp settings source
  return if i.headless then
    .printed (report i.ticks settings.timestamps (bench.runTicks i.ticks))
  else .interactive bench source i.sketch settings.timestamps

end Invocation

/-- The command with these arguments; `inputs` finds what a run needs. -/
def run {m : Type → Type} [Monad m] (inputs : Invocation → m Inputs) (args : List Text) :
    m Outcome :=
  match Request.ofArguments args with
  | .error fault => return .misused fault
  | .ok .help => return .printed helpText
  | .ok .version => return .printed versionText
  | .ok (.run i) => do
    match i.run (← inputs i) with
    | .ok outcome => return outcome
    | .error failure => return .failed failure

end Breadboard.CommandLine
