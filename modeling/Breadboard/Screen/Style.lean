/-
  Breadboard.Screen.Style — colours and styles of what is drawn.

  A style may leave a colour open. Laid over another style it replaces the colours that it
  names and adds its emphasis (`Style.layer`).
-/

import Breadboard.Text.Basic

namespace Breadboard.Screen

inductive Color where
  | black
  | rgb (red green blue : Nat)
  deriving DecidableEq, Repr

structure Style where
  fg : Option Color := none
  bg : Option Color := none
  bold : Bool := false
  dim : Bool := false
  deriving DecidableEq, Repr

namespace Style

/-- The style `top` laid over the style `s`. -/
def layer (s top : Style) : Style where
  fg := top.fg.or s.fg
  bg := top.bg.or s.bg
  bold := s.bold || top.bold
  dim := s.dim || top.dim

def ofFg (c : Color) : Style := { fg := some c }

def ofBg (c : Color) : Style := { bg := some c }

theorem layer_empty (s : Style) : s.layer {} = s := by
  simp [layer]

theorem empty_layer (s : Style) : ({} : Style).layer s = s := by
  simp [layer]

theorem layer_assoc (a b c : Style) : (a.layer b).layer c = a.layer (b.layer c) := by
  simp [layer, Option.or_assoc, Bool.or_assoc]

end Style

end Breadboard.Screen
