/-
  Breadboard.Proofs.Monitor.Following — what the monitor does to the pane with the sketch.

  While a run goes on, the monitor is drawn, a due tick fires and a key is pressed, in turn. For the pane
  with the sketch each turn is a frame with the line that is displayed then, and at most one key of its
  own: the arrows, while the pane has the focus.

  Proved: no other key and no tick touches the pane (`sourceScroll_turn`), so a session at the keyboard is
  a run of frames and keys for it (`sourceScroll_turns`). Every drawing has the displayed line at the place that
  these have led to (`displayed_line_in_sight`), and there the screen shows it (`displayed_line_on_screen`).
-/

import Breadboard.Monitor.Display
import Breadboard.Proofs.Pane.Following

namespace Breadboard

namespace Monitor

open Pane Screen

/-- What a key does to the pane with the sketch: nothing, unless the pane has the focus. -/
def sourceKey (m : Monitor) : Key → List SourceScroll.Event
  | .up => if m.focus = .source then [.up] else []
  | .down => if m.focus = .source then [.down] else []
  | _ => []

/-- How the pane is drawn with the rest of the screen. -/
def sourceFrame (m : Monitor) (width height : Nat) : SourceScroll.Event :=
  .frame m.sourceView (m.focus = .source) (splitPercent 60 width).1 (splitPercent 65 (height - 1)).1

theorem sourceScroll_toggleRun (m : Monitor) (now : Nat) : (m.toggleRun now).sourceScroll = m.sourceScroll := by
  unfold toggleRun
  split <;> rfl

theorem sourceScroll_togglePause (m : Monitor) (now : Nat) : (m.togglePause now).sourceScroll = m.sourceScroll := by
  unfold togglePause
  split
  · rfl
  · split <;> rfl

theorem sourceScroll_forward (m : Monitor) (now : Nat) : (m.forward now).sourceScroll = m.sourceScroll := by
  unfold forward
  split
  · rfl
  · rfl
  · rw [stepLive_eq m now rfl]

theorem sourceScroll_backward (m : Monitor) : m.backward.sourceScroll = m.sourceScroll := by
  unfold backward
  dsimp only
  split
  · rfl
  · split
    · split <;> rfl
    · split <;> rfl

theorem sourceScroll_reload (m : Monitor) (file : Except FileFault Text) : (m.reload file).sourceScroll = m.sourceScroll := by
  unfold reload
  split
  · split
    · unfold takeSource
      dsimp only
      split <;> rfl
    · rfl
  · rfl

/-- Of all keys only the two arrows reach the pane, and only its row. -/
theorem sourceScroll_press (m : Monitor) (now : Nat) (file : Except FileFault Text) (k : Key) :
    (m.press now file k).sourceScroll = m.sourceScroll.run (m.sourceKey k) := by
  unfold press
  split
  · rfl
  · rfl
  · exact sourceScroll_toggleRun m now
  · exact sourceScroll_togglePause m now
  · exact sourceScroll_forward m now
  · exact sourceScroll_forward m now
  · exact sourceScroll_backward m
  · rfl
  · exact sourceScroll_reload m file
  · rfl
  · rfl
  · rfl
  · show m.scrollUp.sourceScroll = m.sourceScroll.run (if m.focus = .source then [.up] else [])
    unfold scrollUp
    cases m.focus <;> rfl
  · show m.scrollDown.sourceScroll = m.sourceScroll.run (if m.focus = .source then [.down] else [])
    unfold scrollDown
    cases m.focus <;> rfl
  · rfl
  · rfl

theorem sourceScroll_turn (m : Monitor) (t : Turn) :
    (m.turn t).sourceScroll = m.sourceScroll.run (m.sourceKey t.key) := by
  have polled : (m.poll t.now).sourceScroll = m.sourceScroll ∧ (m.poll t.now).focus = m.focus := by
    rw [poll_eq]
    exact ⟨rfl, rfl⟩
  have same : (m.poll t.now).sourceKey t.key = m.sourceKey t.key := by
    unfold sourceKey
    rw [polled.2]
  rw [turn, sourceScroll_press, polled.1, same]

/-! ## Sessions at the keyboard -/

/-- A monitor that is drawn before each turn. -/
def turns (m : Monitor) (width height : Nat) (ts : List Turn) : Monitor :=
  ts.foldl (fun m t => (m.draw width height).1.turn t) m

/-- What that comes to for the pane with the sketch. -/
def sourceEvents (m : Monitor) (width height : Nat) : List Turn → List SourceScroll.Event
  | [] => []
  | t :: ts => m.sourceFrame width height :: m.sourceKey t.key ++
    ((m.draw width height).1.turn t).sourceEvents width height ts

theorem sourceScroll_turns (m : Monitor) (width height : Nat) (ts : List Turn) :
    (m.turns width height ts).sourceScroll = m.sourceScroll.run (m.sourceEvents width height ts) := by
  induction ts generalizing m with
  | nil => rfl
  | cons t ts ih =>
    have drawn : (m.draw width height).1.sourceScroll = m.sourceScroll.apply (m.sourceFrame width height) := rfl
    have turned := sourceScroll_turn (m.draw width height).1 t
    show (((m.draw width height).1.turn t).turns width height ts).sourceScroll = _
    rw [ih, turned, drawn]
    exact List.foldl_append.symm

/-- The screens of a session are drawn before the turns, until one of them quits. -/
theorem screen_of_play {m : Monitor} {width height i : Nat} {ts : List Turn} {screen : Grid}
    (h : (m.play width height ts).1[i]? = some screen) :
    screen = ((m.turns width height (ts.take i)).draw width height).2 := by
  have first : ∀ {m : Monitor} {i}, [(m.draw width height).2][i]? = some screen → i = 0 ∧ screen = (m.draw width height).2 := by
    intro m i h
    cases i with
    | zero => exact ⟨rfl, (Option.some.inj h).symm⟩
    | succ i => cases h
  induction ts generalizing m i with
  | nil =>
    obtain ⟨rfl, hs⟩ := first h
    exact hs
  | cons t ts ih =>
    rw [play] at h
    dsimp only at h
    split at h
    · obtain ⟨rfl, hs⟩ := first h
      exact hs
    · cases i with
      | zero => exact (Option.some.inj h).symm
      | succ i => exact ih h

/-- Of two grids beside each other, a row of the upper left one is the left part of a row, if there are as many rows
at the right. -/
theorem getElem?_beside {source serial right status : Grid} {y : Nat} {row : Row} (h : source[y]? = some row)
    (hy : y < right.length) : ∃ rest, (Grid.beside (source ++ serial) right ++ status)[y]? = some (row ++ rest) := by
  have inSource : y < source.length := (List.getElem?_eq_some_iff.1 h).1
  have inLeft : y < (Grid.beside (source ++ serial) right).length := by
    simp only [Grid.beside, List.length_zipWith, List.length_append]
    omega
  refine ⟨right[y], ?_⟩
  rw [List.getElem?_append_left inLeft, Grid.beside, List.getElem?_zipWith, List.getElem?_append_left inSource, h,
    List.getElem?_eq_getElem hy]

/-- A row of the pane with the sketch is the left part of a row of the screen. -/
theorem getElem?_screen (m : Monitor) (width height : Nat) {y : Nat} {row : Row}
    (h : (m.sourceView.draw (m.focus = .source) m.sourceScroll (splitPercent 60 width).1
      (splitPercent 65 (height - 1)).1).2[y]? = some row) :
    ∃ rest, (m.draw width height).2[y]? = some (row ++ rest) := by
  have inPane := (List.getElem?_eq_some_iff.1 h).1
  rw [SourceView.length_draw] at inPane
  refine getElem?_beside h ?_
  -- the pins and the parts together are as high as the screen above the status bar
  show y < (Listing.draw _ _ _ _ _ ++ Listing.draw _ _ _ _ _).length
  rw [List.length_append, Listing.draw, Listing.draw, Frame.length_draw, Frame.length_draw]
  simp only [splitPercent] at inPane ⊢
  omega

section

variable (m : Monitor) {width height i line : Nat} {ts : List Turn}

/-- Whatever was displayed, drawn and pressed before, each drawing of a session has the displayed line in the pane with
the sketch, at the row that the keys of that pane have led to, unless an end of the text keeps it from there. -/
theorem displayed_line_in_sight :
    let m' := m.turns width height ts
    let events := m.sourceEvents width height ts ++ [m'.sourceFrame width height]
    let drawn := (m'.draw width height).1.sourceScroll
    let visible := visibleRows (splitPercent 65 (height - 1)).1
    m'.displayed.line = some line → 1 ≤ line → line ≤ (Text.lines m'.source).length →
    ∃ row, drawn.row = some row ∧ events.foldl SourceScroll.Event.moveRow m.sourceScroll.row = some row ∧ row < visible ∧
      SourceScroll.Follows (Text.lines m'.source).length visible row line drawn.offset := by
  intro m' events drawn visible displayed hline hl
  have current : m'.sourceView.current = some line := displayed
  have last : m.sourceScroll.run events = drawn := by
    rw [SourceScroll.run_concat, ← sourceScroll_turns]
    rfl
  obtain ⟨row, hrow, inPane, follows⟩ := SourceScroll.follows_draw (m'.focus = .source) m'.sourceScroll
    (splitPercent 60 width).1 (splitPercent 65 (height - 1)).1 current hline hl
  exact ⟨row, hrow, by rw [← SourceScroll.row_run, last]; exact hrow, inPane, follows⟩

/-- So each screen of a session shows that line, in a row of the pane that the offset gives. -/
theorem displayed_line_on_screen {screen : Grid} (h : (m.play width height ts).1[i]? = some screen)
    (hwidth : 2 ≤ (splitPercent 60 width).1) (hheight : 3 ≤ (splitPercent 65 (height - 1)).1) :
    let m' := m.turns width height (ts.take i)
    let drawn := (m'.draw width height).1.sourceScroll
    let side : Cell := ⟨['│'], Theme.border (m'.focus = .source)⟩
    m'.displayed.line = some line → 1 ≤ line → line ≤ (Text.lines m'.source).length →
    ∃ text rest, (Text.lines m'.source)[line - 1]? = some text ∧
      screen[line - drawn.offset]? = some
        (side :: (m'.sourceView.line line text).fit ((splitPercent 60 width).1 - 2) {} ++ [side] ++ rest) := by
  intro m' drawn side displayed hline hl
  obtain ⟨_, -, -, -, follows⟩ := m.displayed_line_in_sight displayed hline hl
  obtain ⟨text, htext⟩ : ∃ text, (Text.lines m'.source)[line - 1]? = some text :=
    ⟨_, List.getElem?_eq_getElem (show line - 1 < (Text.lines m'.source).length by omega)⟩
  obtain ⟨rest, shown⟩ := getElem?_screen m' width height
    (SourceScroll.getElem?_draw hwidth hheight hline htext follows.fromTop follows.toBottom)
  refine ⟨text, rest, htext, ?_⟩
  rw [screen_of_play h]
  exact shown

end

end Monitor

end Breadboard
