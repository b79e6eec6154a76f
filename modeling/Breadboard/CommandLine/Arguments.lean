/-
  Breadboard.CommandLine.Arguments — what the arguments of the command ask for.

  There is one sketch, and each option may be given once, its value behind an equals sign or
  as the next argument. Names are never shortened. After two dashes every argument is a
  sketch. Arguments are judged one by one: the first that is wrong decides, unless help or
  the version was asked for before it.
-/

import Breadboard.Text.Numeral

namespace Breadboard.CommandLine

/-- A run that the arguments describe. -/
structure Invocation where
  sketch : Text
  config : Option Text := none
  tick : Option Nat := none
  headless : Bool := false
  ticks : Nat := 200
  logFile : Option Text := none
  deriving DecidableEq, Repr

inductive Request where
  | help
  | version
  | run (i : Invocation)
  deriving DecidableEq, Repr

inductive UsageFault where
  | unknown (argument : Text)
  | extra (argument : Text)
  | repeated (name : Text)
  | valueMissing (name : Text)
  | valueUnwanted (name : Text)
  | badValue (name value : Text)
  | sketchMissing
  deriving DecidableEq, Repr

def UsageFault.message : UsageFault → Text
  | unknown a | extra a => "unexpected argument '".toList ++ a ++ "' found".toList
  | repeated n => "the argument '".toList ++ n ++ "' cannot be used multiple times".toList
  | valueMissing n => "a value is required for '".toList ++ n ++ "' but none was supplied".toList
  | valueUnwanted n => "unexpected value for '".toList ++ n ++ "' found".toList
  | badValue n v => "invalid value '".toList ++ v ++ "' for '".toList ++ n ++ "'".toList
  | sketchMissing => "the following required arguments were not provided: <SKETCH>".toList

/-- What has been given so far. -/
structure Draft where
  sketch : Option Text := none
  config : Option Text := none
  tick : Option Nat := none
  headless : Bool := false
  ticks : Option Nat := none
  logFile : Option Text := none

namespace Draft

def finish (d : Draft) : Except UsageFault Request :=
  match d.sketch with
  | none => .error .sketchMissing
  | some sketch =>
    .ok (.run {
      sketch
      config := d.config
      tick := d.tick
      headless := d.headless
      ticks := d.ticks.getD 200
      logFile := d.logFile })

def addSketch (d : Draft) (a : Text) : Except UsageFault Draft :=
  if a.isEmpty then .error (.badValue "<SKETCH>".toList a)
  else if d.sketch.isSome then .error (.extra a)
  else .ok { d with sketch := some a }

end Draft

/-- An option that takes a value. -/
inductive ValueOption where
  | config
  | tickMs
  | ticks
  | logFile
  deriving DecidableEq, Repr

namespace ValueOption

def all : List ValueOption := [config, tickMs, ticks, logFile]

def name : ValueOption → Text
  | config => "--config".toList
  | tickMs => "--tick-ms".toList
  | ticks => "--ticks".toList
  | logFile => "--log-file".toList

def pathValue (o : ValueOption) (old : Option Text) (v : Text) : Except UsageFault (Option Text) :=
  if old.isSome then .error (.repeated o.name)
  else if v.isEmpty then .error (.badValue o.name v)
  else .ok (some v)

def countValue (o : ValueOption) (old : Option Nat) (v : Text) : Except UsageFault (Option Nat) :=
  if old.isSome then .error (.repeated o.name)
  else match Text.unsigned? Text.maxWord64 v with
    | some n => .ok (some n)
    | none => .error (.badValue o.name v)

def set (o : ValueOption) (d : Draft) (v : Text) : Except UsageFault Draft :=
  match o with
  | config => do return { d with config := ← o.pathValue d.config v }
  | tickMs => do return { d with tick := ← o.countValue d.tick v }
  | ticks => do return { d with ticks := ← o.countValue d.ticks v }
  | logFile => do return { d with logFile := ← o.pathValue d.logFile v }

end ValueOption

/-- Whether an argument is read as an option; a single dash is a value. -/
def looksLikeOption : Text → Bool
  | '-' :: _ :: _ => true
  | _ => false

/-- A name and the value behind its equals sign. -/
def splitValue (a : Text) : Text × Option Text :=
  match Text.cut ['='] a with
  | some (name, value) => (name, some value)
  | none => (a, none)

def headlessName : Text := "--headless".toList

/-- The switches of one letter that ask for something else than a run; the first decides. -/
def letters (a : Text) : Except UsageFault Request :=
  match a with
  | _ :: 'h' :: _ => .ok .help
  | _ :: 'V' :: _ => .ok .version
  | _ => .error (.unknown a)

/-- What an argument that begins with two dashes is. -/
inductive LongName where
  | help
  | version
  | headless
  | option (o : ValueOption)
  deriving DecidableEq, Repr

def LongName.ofText? (name : Text) : Option LongName :=
  if name = "--help".toList then some help
  else if name = "--version".toList then some version
  else if name = headlessName then some headless
  else (ValueOption.all.find? (·.name = name)).map option

/-- Reads on with what has been given so far; `plain` is set after two dashes. -/
def readFrom (d : Draft) (plain : Bool) : List Text → Except UsageFault Request
  | [] => d.finish
  | a :: rest =>
    if plain || !looksLikeOption a then do readFrom (← d.addSketch a) plain rest
    else if a = "--".toList then readFrom d true rest
    else if a.take 2 ≠ "--".toList then letters a
    else
      let (name, value) := splitValue a
      match LongName.ofText? name, value with
      | none, _ => .error (.unknown a)
      | some .help, none => .ok .help
      | some .version, none => .ok .version
      | some .headless, none =>
        if d.headless then .error (.repeated headlessName)
        else readFrom { d with headless := true } plain rest
      | some (.option o), some v => do readFrom (← o.set d v) plain rest
      | some (.option o), none =>
        match rest with
        | v :: rest =>
          if looksLikeOption v then .error (.valueMissing o.name)
          else do readFrom (← o.set d v) plain rest
        | [] => .error (.valueMissing o.name)
      | some _, some _ => .error (.valueUnwanted name)

def Request.ofArguments (args : List Text) : Except UsageFault Request := readFrom {} false args

end Breadboard.CommandLine
