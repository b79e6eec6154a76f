/-
  Breadboard.Sketch.Pass — taking block comments out in one pass.

  A single scan from left to right with three states: in code, in a string literal, in a
  block comment. It says in one recursion what repeated searches for the marks of comments
  come to.
-/

import Breadboard.Sketch.Comment

namespace Breadboard.Sketch

/-- Where a pass over a line stands. -/
inductive Place where
  | outside (zone : Zone)
  | comment
  deriving DecidableEq, Repr

namespace Place

def ofFlag (inComment : Bool) : Place := if inComment then comment else outside .code

def isComment : Place → Bool
  | comment => true
  | outside _ => false

/-- The characters outside block comments, and the place after the line. -/
def pass : Place → Text → Text × Place
  | p, [] => ([], p)
  | comment, '*' :: '/' :: t => pass (outside .code) t
  | comment, _ :: t => pass comment t
  | outside .code, '/' :: '*' :: t => pass comment t
  | outside z, c :: t =>
    let (kept, p) := pass (outside (z.next c)) t
    (c :: kept, p)

end Place

end Breadboard.Sketch
