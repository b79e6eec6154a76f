/-
  Breadboard.Sketch.Comment — taking comments out of a line.

  A line comment runs from the first `//` in code to the end of the line (`uncommentTail`).
  A block comment runs from a slash and star in code to the next star and slash, over as
  many lines as it takes; `uncomment` drops the parts of one line that lie in block comments
  and says whether one is still open at its end. After a comment the line goes on in code.
-/

import Breadboard.Sketch.Zone

namespace Breadboard.Sketch

def lineMark : Text := "//".toList

def openMark : Text := "/*".toList

def closeMark : Text := "*/".toList

/-- The line up to its line comment. -/
def uncommentTail (t : Text) : Text :=
  match Zone.cutCode lineMark .code t with
  | some (before, _) => before
  | none => t

/-- The parts of a line outside block comments, and whether a comment is open after it. -/
def uncomment (inComment : Bool) (t : Text) : Text × Bool :=
  if inComment then
    match _h : Text.cut closeMark t with
    | some (_, rest) => uncomment false rest
    | none => ([], true)
  else
    match _h : Zone.cutCode openMark .code t with
    | some (kept, rest) =>
      let (more, last) := uncomment true rest
      (kept ++ more, last)
    | none => (t, false)
termination_by t.length
decreasing_by
  · have := congrArg List.length (Text.cut_append _h)
    simp [closeMark] at this
    omega
  · have := congrArg List.length (Zone.cutCode_append _h)
    simp [openMark] at this
    omega

end Breadboard.Sketch
