/-
  Breadboard.Main — the command on a real machine.

  Everything here reads and writes files, the clock and the terminal, and hands what it read
  to the rest of the library. The monitor is drawn whenever it changes; keys are taken line
  by line, or one by one from a terminal that passes each on at once.
-/

import Breadboard.CommandLine.Command
import Breadboard.Monitor.Display
import Breadboard.Monitor.Keyboard
import Breadboard.Screen.Terminal

namespace Breadboard.Console

open CommandLine

/-! ## Files -/

def faultOf : IO.Error → FileFault
  | .noFileOrDirectory _ _ _ => .missing
  | .inappropriateType _ code details => if code = 21 then .directory else .other details.toList
  | e => .other (toString e).toList

def attempt (act : IO α) : IO (Except FileFault α) := do
  try
    return .ok (← act)
  catch e => return .error (faultOf e)

def readText (path : Text) : IO (Except FileFault Text) := do
  return (← attempt (IO.FS.readBinFile (String.ofList path))).bind Settings.textOfBytes?

def createFile (path : Text) : IO (Except FileFault Unit) :=
  attempt (IO.FS.writeBinFile (String.ofList path) .empty)

def readHomeSettings : IO (Except FileFault Text) := do
  match ← IO.getEnv "HOME" with
  | some home => readText (home ++ "/.sketchtty/config.yaml").toList
  | none => return .error .missing

def inputs (i : Invocation) : IO Inputs := do
  let log ←
    match i.logFile with
    | some path => createFile path
    | none => pure (.ok ())
  let settings ←
    match i.config with
    | some path => readText path
    | none => readHomeSettings
  return { log, settings, sketch := ← readText i.sketch }

/-! ## The monitor -/

def put (t : Text) : IO Unit := do
  let out ← IO.getStdout
  out.putStr (String.ofList t)
  out.flush

/-- A length that the environment gives. -/
def measure (name : String) (default : Nat) : IO Nat := do
  let value := (← IO.getEnv name).bind fun s => Text.natural? s.toList
  return value.getD default

/-- The longest wait for a key, in milliseconds; well under the period of a clock. -/
def keyWait : UInt32 := 5

def readLine : BaseIO (Task (Except IO.Error String)) :=
  IO.asTask (do (← IO.getStdin).getLine) .dedicated

/-- Draws and polls until the monitor is left; `line` is the next line of the keyboard. -/
partial def interact (m : Monitor) (path : Text) (width height : Nat) (keys : List Key)
    (line : Task (Except IO.Error String)) (shown : Text) : IO Unit := do
  let (m, grid) := m.draw width height
  let drawn := Screen.Grid.drawn grid
  if drawn ≠ shown then put drawn
  unless m.quit do
    let m := m.poll (← IO.monoMsNow)
    match keys with
    | k :: keys => do
      let file ← if k = .char 'l' then readText path else pure (.error .missing)
      interact (m.press (← IO.monoMsNow) file k) path width height keys line drawn
    | [] => do
      if ← IO.hasFinished line then
        match line.get with
        | .ok s =>
          if s.isEmpty then return
          interact m path width height (Key.ofInput s.toList) (← readLine) drawn
        | .error e => throw e
      else do
        IO.sleep keyWait
        interact m path width height [] line drawn

def runOnScreen (m : Monitor) (path : Text) : IO Unit := do
  let width ← measure "COLUMNS" 80
  let height ← measure "LINES" 24
  put Screen.clearCode
  interact m path width height [] (← readLine) []
  put ['\n']

/-! ## The command -/

def report : Outcome → IO Unit
  | .printed t => put t
  | .misused fault => IO.eprintln ("error: " ++ String.ofList fault.message)
  | .failed failure =>
    IO.eprintln ("Error: " ++ String.ofList (failure.kind ++ ": ".toList ++ failure.message))
  | .interactive bench source path timestamps =>
    runOnScreen { bench, source, hasFile := true, timestamps } path

end Breadboard.Console

open Breadboard in
def main (args : List String) : IO UInt32 := do
  let outcome ← CommandLine.run Console.inputs (args.map (·.toList))
  Console.report outcome
  return outcome.exitCode.toUInt32
