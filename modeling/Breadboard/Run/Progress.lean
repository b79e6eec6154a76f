/-
  Breadboard.Run.Progress — where a run stands in its program.

  A run is idle, in its setup, in its loop, or halted because the program is empty. The
  cursor is the index of the next statement in the block. A delay closes the gate until its
  wake time; the gate is gone as soon as a time at or past it is seen.

  In a run the cursor never leaves its block. One that was put behind it by hand goes on from
  there, as a word of 64 bits.
-/

import Breadboard.Sketch.Statement
import Breadboard.Text.Numeral

namespace Breadboard

inductive Phase where
  | idle
  | setup
  | loop
  | halted
  deriving DecidableEq, Repr

namespace Phase

/-- The block that the next statement comes from. -/
def block? : Phase → Option Block
  | setup => some .setup
  | loop => some .loop
  | idle | halted => none

def isRunning (p : Phase) : Bool := p.block?.isSome

def word : Phase → Text
  | idle => "idle".toList
  | setup => "setup".toList
  | loop => "loop".toList
  | halted => "halted".toList

end Phase

structure Progress where
  phase : Phase := .idle
  cursor : Nat := 0
  wakeAt : Option Nat := none
  deriving DecidableEq, Repr

namespace Progress

/-- Begins a run at the first block that has statements; one under way is left alone. -/
def start (s : Progress) (p : Program) : Progress :=
  if s.phase ≠ .idle then s
  else if p.setup ≠ [] then { phase := .setup }
  else if p.loop ≠ [] then { phase := .loop }
  else { phase := .halted }

def isGated (s : Progress) (now : Nat) : Bool :=
  match s.wakeAt with
  | some wake => now < wake
  | none => false

/-- The progress at a time: a gate that is no longer closed is taken away. -/
def passGate (s : Progress) (now : Nat) : Progress :=
  if s.isGated now then s else { s with wakeAt := none }

def sleepUntil (s : Progress) (wake : Nat) : Progress := { s with wakeAt := some wake }

/-- The statement to run next. -/
def current? (s : Progress) (p : Program) : Option Node :=
  match s.phase.block? with
  | some b => (p.block b)[s.cursor]?
  | none => none

/-- Whether the cursor stands behind a block with statements, at the last word of 64 bits, from which
it comes round to zero. -/
def comesRound (s : Progress) (block : List Node) : Bool :=
  !block.isEmpty && block.length ≤ s.cursor && s.cursor = Text.maxWord64

theorem comesRound_eq_false {s : Progress} {block : List Node} (h : s.cursor < block.length) :
    s.comesRound block = false := by
  have : decide (block.length ≤ s.cursor) = false := by simp; omega
  simp [comesRound, this]

/-- Moves past the current statement; setup hands over to the loop, the loop starts over. -/
def advance (s : Progress) (p : Program) : Progress :=
  match s.phase with
  | .setup =>
    if s.comesRound p.setup then { s with cursor := 0 }
    else if p.setup.length ≤ s.cursor + 1 then { s with phase := .loop, cursor := 0 }
    else { s with cursor := s.cursor + 1 }
  | .loop =>
    if p.loop = [] then s
    else if p.loop.length ≤ s.cursor + 1 then { s with cursor := 0 }
    else { s with cursor := s.cursor + 1 }
  | .idle | .halted => s

end Progress

end Breadboard
