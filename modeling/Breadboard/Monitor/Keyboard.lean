/-
  Breadboard.Monitor.Keyboard — the keys that the characters from a terminal stand for.

  Arrows come as three characters that begin with an escape. A letter pressed with the
  control key comes as a control character and counts as the letter; the ends of lines and
  the characters of other keys count as keys without a meaning.
-/

import Breadboard.Monitor.Basic

namespace Breadboard.Key

/-- The key of a character that begins no arrow. -/
def ofChar (c : Char) : Key :=
  if c = '\t' then .tab
  else if c = '\n' ∨ c = '\r' ∨ c = '\x1b' ∨ c = '\x7f' then .other
  else if 1 ≤ c.toNat ∧ c.toNat ≤ 26 then .char (Char.ofNat (c.toNat + 0x60))
  else if c.toNat < 0x20 then .other
  else .char c

def ofInput : Text → List Key
  | [] => []
  | '\x1b' :: '[' :: 'A' :: t => .up :: ofInput t
  | '\x1b' :: '[' :: 'B' :: t => .down :: ofInput t
  | '\x1b' :: '[' :: 'C' :: t => .right :: ofInput t
  | '\x1b' :: '[' :: 'D' :: t => .left :: ofInput t
  | c :: t => ofChar c :: ofInput t

end Breadboard.Key
