/-
  Breadboard.CommandLine.Folder — files in memory.

  A folder holds texts under paths. A path is taken part by part; parts that are empty or a
  single dot are passed over, unless they stand behind a file. There is a directory wherever
  some file's path goes on, and at the top. A file can be created only in a directory.
-/

import Breadboard.Text.Lines
import Breadboard.CommandLine.Command

namespace Breadboard.CommandLine

structure Folder where
  files : List (List Text × Text) := []
  /-- The settings in the user's home. -/
  home : Option Text := none

namespace Folder

def isIdle (part : Text) : Bool := part = [] || part = ['.']

/-- The parts of a path; `none` for one that begins at the root of a disk, leaves the folder, or
asks for a directory by its end. -/
def parts? (path : Text) : Option (List Text) :=
  let parts := Text.pieces '/' path
  match path with
  | '/' :: _ => none
  | _ => if parts.contains "..".toList || isIdle (parts.getLastD []) then none
         else some (parts.filter (!isIdle ·))

def isDirectory (f : Folder) (parts : List Text) : Bool :=
  parts.isEmpty || f.files.any fun (p, _) => parts.length < p.length && p.take parts.length = parts

def ofList (files : List (Text × Text)) (home : Option Text) : Folder where
  files := files.filterMap fun (path, t) => (parts? path).map (·, t)
  home := home

def read (f : Folder) (path : Text) : Except FileFault Text :=
  match parts? path with
  | none => .error .missing
  | some parts =>
    match f.files.lookup parts with
    | some t => .ok t
    | none => .error (if f.isDirectory parts then .directory else .missing)

def create (f : Folder) (path : Text) : Except FileFault Folder :=
  match parts? path with
  | none => .error .missing
  | some parts =>
    if f.isDirectory parts then .error .directory
    else if f.isDirectory parts.dropLast then
      .ok { f with files := (parts, []) :: f.files.filter (·.1 ≠ parts) }
    else .error .missing

/-- The folder after a log file was made in it, and how that went. -/
def openLog (f : Folder) : Option Text → Folder × Except FileFault Unit
  | none => (f, .ok ())
  | some path =>
    match f.create path with
    | .ok f => (f, .ok ())
    | .error e => (f, .error e)

/-- What a run finds in a folder. -/
def inputs (f : Folder) (i : Invocation) : Inputs :=
  let (f, log) := f.openLog i.logFile
  { log
    settings :=
      match i.config with
      | some path => f.read path
      | none => f.home.elim (.error .missing) .ok
    sketch := f.read i.sketch }

/-- The command in a folder. -/
def run (f : Folder) (args : List Text) : Outcome := CommandLine.run (m := Id) f.inputs args

end Folder

end Breadboard.CommandLine
