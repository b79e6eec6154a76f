/-
  Breadboard.Sketch.Reader — from the text of a sketch to its program.

  The reader goes through the source line by line and keeps three things between lines: the
  block it is in, the depth of braces in it, and whether a block comment is open. A line
  with `void` and `setup(` or `loop(` outside strings opens that block; the block takes
  every line that is read at a positive depth and has more than braces; it closes where the
  depth comes back to zero. Text outside the two blocks is dropped. A reader may be used on
  several texts in turn, and then goes on where it stood.
-/

import Breadboard.Text.Lines
import Breadboard.Sketch.Call

namespace Breadboard

namespace Sketch

structure Reader where
  block : Option Block := none
  /-- Braces that are open, a whole number of any size like `netBraces`: a count of 32 bits would differ from it
  from 2 ^ 31 open braces on. -/
  depth : Int := 0
  inComment : Bool := false
  deriving DecidableEq, Repr, Inhabited

/-- The block whose function a line of code declares. -/
def signature? (code : Text) : Option Block :=
  let code := Zone.outline .code code
  if !Text.contains "void".toList code then none
  else if Text.contains "setup(".toList code then some .setup
  else if Text.contains "loop(".toList code then some .loop
  else none

def isBraceOrBlank (c : Char) : Bool := c == '{' || c == '}' || Text.isBlank c

/-- The line as it is kept: without block comments and outer blanks, unless nothing or only a
line comment is left. -/
def kept? (uncommented : Text) : Option Text :=
  let line := Text.trim uncommented
  if line.isEmpty || (Text.dropPrefix? lineMark line).isSome then none else some line

namespace Reader

def close (r : Reader) : Reader := { r with block := none, depth := 0 }

/-- The depth moves by the braces of a line; where it comes back to zero the block ends. -/
def shift (r : Reader) (delta : Int) : Reader :=
  if 0 < r.depth ∧ r.depth + delta ≤ 0 then r.close else { r with depth := r.depth + delta }

/-- One kept line: the reader after it, and the block that takes the line, if any. -/
def takeLine (r : Reader) (line : Text) : Reader × Option Block :=
  let code := Text.trim (uncommentTail line)
  let delta := Zone.netBraces .code code
  match signature? code with
  | some b =>
    if '{' ∈ code ∧ delta ≤ 0 then (r.close, none)
    else ({ r with block := some b, depth := delta }, none)
  | none =>
    match r.block with
    | none => (r, none)
    | some b =>
      if code.all isBraceOrBlank then (r.shift delta, none)
      else (r.shift delta, if 0 < r.depth then some b else none)

/-- One line of the source: the reader after it, and what it adds to the program. -/
def step (r : Reader) (raw : Text) : Reader × Option (Block × Text) :=
  let (rest, inComment) := uncomment r.inComment raw
  let r := { r with inComment }
  match kept? rest with
  | none => (r, none)
  | some line =>
    let (r, taken) := r.takeLine line
    (r, taken.map fun b => (b, line))

/-- Reads lines, the first of which has number `n`. -/
def readFrom (r : Reader) (n : Nat) : List Text → Reader × Program
  | [] => (r, {})
  | raw :: rest =>
    let (r, added) := r.step raw
    let (r, program) := r.readFrom (n + 1) rest
    match added with
    | none => (r, program)
    | some (b, text) => (r, program.cons b ⟨Statement.ofLine text, text, n⟩)

def read (r : Reader) (source : Text) : Reader × Program := r.readFrom 1 (Text.lines source)

end Reader

end Sketch

/-- The program of a sketch. -/
def Program.ofSource (source : Text) : Program := (({} : Sketch.Reader).read source).2

end Breadboard
