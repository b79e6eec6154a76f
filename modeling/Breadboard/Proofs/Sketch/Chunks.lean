/-
  Breadboard.Proofs.Sketch.Chunks — a sketch that is read in parts.

  A reader may be used on one text after another. It numbers the lines of each from one, and keeps
  between two texts its block, the depth in it and whether a block comment is open.

  Proved: the number at which a reader begins to count tells in the line numbers alone
  (`Reader.readFrom_add`), and so a text that is cut at a beginning of a line may be read in its two
  parts: the reader comes to stand where it stands after the whole, and the nodes of the whole are
  those of the parts, the later ones with their lines counted on (`Reader.read_append`).
-/

import Breadboard.Proofs.Sketch.Reading

namespace Breadboard

/-- The node so many lines further down. -/
def Node.down (d : Nat) (x : Node) : Node := { x with line := x.line + d }

def Program.down (d : Nat) (p : Program) : Program := ⟨p.setup.map (·.down d), p.loop.map (·.down d)⟩

theorem Program.block_down (d : Nat) (p : Program) (b : Block) : (p.down d).block b = (p.block b).map (·.down d) := by
  cases b <;> rfl

theorem Program.down_cons (d : Nat) (b : Block) (x : Node) (p : Program) :
    (p.cons b x).down d = (p.down d).cons b (x.down d) := by
  cases b <;> rfl

namespace Sketch.Reader

/-- Whatever number the first line has, the reader does the same. -/
theorem readFrom_add (r : Reader) (n d : Nat) (ls : List Text) :
    r.readFrom (n + d) ls = ((r.readFrom n ls).1, (r.readFrom n ls).2.down d) := by
  induction ls generalizing r n with
  | nil => rfl
  | cons raw ls ih =>
    rw [readFrom_cons, readFrom_cons, Nat.add_right_comm, ih]
    rcases (r.step raw).2 with _ | ⟨b, text⟩
    · rfl
    · simp only [Program.down_cons, Node.down]

/-- A text of complete lines and another text, read one after the other by a reader that may stand anywhere, leave it where
the two in one leave it. The nodes of a block in the whole are those of the first text and behind them those of the second
one, their lines counted on from the number of lines in the first. -/
theorem read_append (r : Reader) {s : Text} (complete : Text.EndsLine s) (t : Text) :
    let first := r.read s
    let second := first.1.read t
    let whole := r.read (s ++ t)
    whole.1 = second.1 ∧
      ∀ b, whole.2.block b = first.2.block b ++ (second.2.block b).map (·.down (Text.lines s).length) := by
  intro first second whole
  have split : whole = (second.1, first.2.append (second.2.down (Text.lines s).length)) := by
    show r.readFrom 1 (Text.lines (s ++ t)) = _
    rw [complete.lines_append, readFrom_append, readFrom_add]
    rfl
  refine ⟨by rw [split], fun b => ?_⟩
  rw [split, Program.block_append, Program.block_down]

/-- The cut stands in a block, in a comment and behind a carriage return. -/
theorem read_append_blink :
    let s := "void loop() \x7b\r\n  digitalWrite(13, HIGH); /* on\r\n".toList
    let t := "\r\nand off */ delay(500);\r\n\x7d".toList
    let r : Reader := { block := some .setup, depth := -3 }
    let first := r.read s
    let second := first.1.read t
    let whole := r.read (s ++ t)
    Text.EndsLine s ∧ (Text.lines s).length = 2 ∧ first.1 = ⟨some .loop, 1, true⟩ ∧ second.1 = {} ∧
      whole.1 = second.1 ∧
      whole.2.loop = first.2.loop ++ (second.2.loop.map (·.down 2)) ∧
      whole.2.loop.map (·.line) = [2, 4] := by
  intro s t r first second whole
  have complete : Text.EndsLine s := Or.inr ⟨"void loop() \x7b\r\n  digitalWrite(13, HIGH); /* on\r".toList, by decide⟩
  obtain ⟨reader, nodes⟩ := r.read_append complete t
  have two : (Text.lines s).length = 2 := by decide
  have blocks := nodes .loop
  rw [two] at blocks
  exact ⟨complete, two, by decide +kernel, by decide +kernel, reader, blocks, by decide +kernel⟩

end Sketch.Reader

end Breadboard
