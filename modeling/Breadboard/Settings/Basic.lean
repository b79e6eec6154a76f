/-
  Breadboard.Settings.Basic — the settings of a simulation and what is wrong with bad ones.

  Settings give the clock's period, the parts on the board, whether the serial monitor shows
  times, and the memory for recorded steps. The period has to be between one millisecond and
  one second.
-/

import Breadboard.Run.Bench
import Breadboard.Yaml.Fault

namespace Breadboard

structure Settings where
  tick : Nat := defaultPeriod
  peripherals : List Peripheral :=
    [{ id := "led-builtin".toList, kind := .redLed, pin := .number 13 },
      { id := "led-green".toList, kind := .greenLed, pin := .number 12, position := (1, 0) }]
  timestamps : Bool := true
  historyLimit : Nat := defaultHistoryLimit
  deriving DecidableEq, Repr

/-- Why a file could not be read. -/
inductive FileFault where
  | missing
  | directory
  | notText
  | other (reason : Text)
  deriving DecidableEq, Repr

def FileFault.message : FileFault → Text
  | missing => "No such file or directory (os error 2)".toList
  | directory => "Is a directory (os error 21)".toList
  | notText => "stream did not contain valid UTF-8".toList
  | other reason => reason

/-- Why a text is no settings. -/
inductive SettingsFault where
  | malformed (fault : Yaml.Fault)
  | notMapping
  | repeated (key : Text)
  | missing (key : Text)
  | badValue (key : Text)
  deriving DecidableEq, Repr

def SettingsFault.message : SettingsFault → Text
  | malformed fault => fault.message
  | notMapping => "expected a mapping".toList
  | repeated key => "duplicate field ".toList ++ key
  | missing key => "missing field ".toList ++ key
  | badValue key => "invalid value for ".toList ++ key

inductive SettingsError where
  | unreadable (fault : FileFault)
  | malformed (fault : SettingsFault)
  | badTick (tick : Nat)
  deriving DecidableEq, Repr

/-- The message about the settings file at a path. -/
def SettingsError.message (path : Text) : SettingsError → Text
  | unreadable fault => "failed to read config ".toList ++ path ++ ": ".toList ++ fault.message
  | malformed fault => "invalid config ".toList ++ path ++ ": ".toList ++ fault.message
  | badTick tick => "tick_ms must be between 1 and 1000, got ".toList ++ Text.decimal tick

namespace Settings

def validate (s : Settings) : Except SettingsError Settings :=
  if 1 ≤ s.tick ∧ s.tick ≤ 1000 then .ok s else .error (.badTick s.tick)

/-- The parts of the settings; of parts with one id the last counts. -/
def registry (s : Settings) : Registry := .ofList s.peripherals

end Settings

end Breadboard
