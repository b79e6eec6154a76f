/-
  Breadboard.Proofs.Sketch.Reading — reading the lines of a source one after the other.

  What a reader makes of two stretches of lines is what it makes of the first and then of the
  second (`Reader.readFrom_append`), and the nodes of a block come line by line, each from the
  line that its number says (`Reader.block_readFrom`, `Reader.mem_readFrom`). Of one line it is
  said by which block it is taken (`Reader.step_snd`).
-/

import Mathlib
import Breadboard.Sketch.Reader
import Breadboard.Sketch.Rendering
import Breadboard.Proofs.Text.Lines

namespace Breadboard

/-! ## Programs -/

namespace Program

@[simp] theorem block_empty (b : Block) : ({} : Program).block b = [] := by cases b <;> rfl

theorem block_cons (p : Program) (b b' : Block) (n : Node) :
    (p.cons b n).block b' = if b = b' then n :: p.block b' else p.block b' := by
  cases b <;> cases b' <;> rfl

/-- The statements of one program, and then those of another. -/
def append (p q : Program) : Program := ⟨p.setup ++ q.setup, p.loop ++ q.loop⟩

theorem block_append (p q : Program) (b : Block) : (p.append q).block b = p.block b ++ q.block b := by
  cases b <;> rfl

theorem ext_block {p q : Program} (h : ∀ b, p.block b = q.block b) : p = q := by
  obtain ⟨s, l⟩ := p
  obtain ⟨s', l'⟩ := q
  obtain rfl : s = s' := h .setup
  obtain rfl : l = l' := h .loop
  rfl

theorem append_empty (p : Program) : p.append {} = p := by
  refine ext_block ?_
  intro b
  rw [block_append, block_empty, List.append_nil]

theorem cons_append (b : Block) (n : Node) (p q : Program) : (p.cons b n).append q = (p.append q).cons b n := by
  cases b <;> rfl

end Program

/-! ## The reader -/

namespace Sketch

/-- The code of a kept line: no line comment and no blanks around it. -/
def codeOf (line : Text) : Text := Text.trim (uncommentTail line)

namespace Reader

theorem readFrom_cons (r : Reader) (n : Nat) (raw : Text) (rest : List Text) :
    r.readFrom n (raw :: rest) =
      (((r.step raw).1.readFrom (n + 1) rest).1,
        match (r.step raw).2 with
        | none => ((r.step raw).1.readFrom (n + 1) rest).2
        | some (b, text) => ((r.step raw).1.readFrom (n + 1) rest).2.cons b ⟨Statement.ofLine text, text, n⟩) := by
  rw [readFrom]
  rcases r.step raw with ⟨r', _ | ⟨b, text⟩⟩ <;> rfl

theorem readFrom_append (r : Reader) (n : Nat) (xs ys : List Text) :
    r.readFrom n (xs ++ ys) =
      (((r.readFrom n xs).1.readFrom (n + xs.length) ys).1,
        (r.readFrom n xs).2.append ((r.readFrom n xs).1.readFrom (n + xs.length) ys).2) := by
  induction xs generalizing r n with
  | nil => rfl
  | cons x xs ih =>
    have hn : n + (x :: xs).length = n + 1 + xs.length := by rw [List.length_cons]; omega
    rw [List.cons_append, readFrom_cons, readFrom_cons, ih, hn]
    rcases (r.step x).2 with _ | ⟨b, text⟩
    · rfl
    · simp only [Program.cons_append]

/-- What the reader makes of the line at an index for a block. -/
def node? (r : Reader) (n : Nat) (ls : List Text) (b : Block) (k : Nat) : Option Node :=
  (ls[k]?.bind fun l => ((r.readFrom n (ls.take k)).1.step l).2).bind fun a =>
    if a.1 = b then some ⟨Statement.ofLine a.2, a.2, n + k⟩ else none

theorem node?_eq_some_iff {r : Reader} {n k : Nat} {ls : List Text} {b : Block} {x : Node} :
    r.node? n ls b k = some x ↔
      ∃ l text, ls[k]? = some l ∧ ((r.readFrom n (ls.take k)).1.step l).2 = some (b, text) ∧
        x = ⟨Statement.ofLine text, text, n + k⟩ := by
  unfold node?
  rcases hl : ls[k]? with _ | l
  · simp
  · rcases hs : ((r.readFrom n (ls.take k)).1.step l).2 with _ | ⟨b', text⟩
    · simp [hs]
    · by_cases hb : b' = b
      · subst hb
        simp [hs, eq_comm]
      · simp [hs, hb]

/-- The nodes of a block come line by line. -/
theorem block_readFrom (r : Reader) (n : Nat) (ls : List Text) (b : Block) :
    (r.readFrom n ls).2.block b = (List.range ls.length).filterMap (r.node? n ls b) := by
  induction ls generalizing r n with
  | nil => simp [readFrom]
  | cons raw ls ih =>
    have rest : r.node? n (raw :: ls) b ∘ Nat.succ = (r.step raw).1.node? (n + 1) ls b := by
      funext k
      simp only [node?, Function.comp_apply, List.getElem?_cons_succ, List.take_succ_cons, readFrom_cons,
        Nat.succ_eq_add_one, Nat.add_assoc, Nat.add_comm 1]
    have first : r.node? n (raw :: ls) b 0 =
        (r.step raw).2.bind fun a => if a.1 = b then some ⟨Statement.ofLine a.2, a.2, n⟩ else none := rfl
    rw [List.length_cons, List.range_succ_eq_map, List.filterMap_cons, List.filterMap_map, rest, first, ← ih,
      readFrom_cons]
    rcases (r.step raw).2 with _ | ⟨b', text⟩
    · rfl
    · simp only [Program.block_cons, Option.bind_some]
      by_cases hb : b' = b
      · simp [hb]
      · simp [hb]

/-- Each node is what the reader takes of the line with its number. -/
theorem mem_readFrom {r : Reader} {n : Nat} {ls : List Text} {b : Block} {x : Node} :
    x ∈ (r.readFrom n ls).2.block b ↔
      ∃ k l text, ls[k]? = some l ∧ ((r.readFrom n (ls.take k)).1.step l).2 = some (b, text) ∧
        x = ⟨Statement.ofLine text, text, n + k⟩ := by
  simp only [block_readFrom, List.mem_filterMap, List.mem_range, node?_eq_some_iff]
  constructor
  · intro h0
    obtain ⟨k, -, h⟩ := h0
    exact ⟨k, h⟩
  · intro h0
    obtain ⟨k, l, text, hl, h⟩ := h0
    exact ⟨k, (List.getElem?_eq_some_iff.1 hl).1, l, text, hl, h⟩

/-! ## One line -/

theorem takeLine_of_signature {r : Reader} {line : Text} {b : Block} (h : signature? (codeOf line) = some b) :
    r.takeLine line =
      (if '{' ∈ codeOf line ∧ Zone.netBraces .code (codeOf line) ≤ 0 then r.close
        else { r with block := some b, depth := Zone.netBraces .code (codeOf line) }, none) := by
  unfold takeLine
  simp only [← codeOf.eq_1, h]
  split <;> rfl

theorem takeLine_of_closed {r : Reader} {line : Text} (h : signature? (codeOf line) = none) (hb : r.block = none) :
    r.takeLine line = (r, none) := by
  unfold takeLine
  simp only [← codeOf.eq_1, h, hb]

theorem takeLine_of_block {r : Reader} {line : Text} {b : Block} (h : signature? (codeOf line) = none)
    (hb : r.block = some b) :
    r.takeLine line =
      (r.shift (Zone.netBraces .code (codeOf line)),
        if 0 < r.depth ∧ (codeOf line).all isBraceOrBlank = false then some b else none) := by
  unfold takeLine
  simp only [← codeOf.eq_1, h, hb]
  cases (codeOf line).all isBraceOrBlank <;> simp

/-- Which block takes a line. -/
theorem takeLine_snd {r : Reader} {line : Text} {b : Block} :
    (r.takeLine line).2 = some b ↔
      signature? (codeOf line) = none ∧ r.block = some b ∧ 0 < r.depth ∧
        (codeOf line).all isBraceOrBlank = false := by
  rcases hs : signature? (codeOf line) with _ | b'
  · rcases hb : r.block with _ | b'
    · rw [takeLine_of_closed hs hb]; simp
    · rw [takeLine_of_block hs hb]
      by_cases hd : 0 < r.depth ∧ (codeOf line).all isBraceOrBlank = false
      · rw [if_pos hd]; simp [hd.1, hd.2]
      · rw [if_neg hd]
        constructor
        · intro h; cases h
        · intro h0
          obtain ⟨-, -, h⟩ := h0
          exact absurd h hd
  · rw [takeLine_of_signature hs]; simp

theorem shift_inComment (r : Reader) (delta : Int) : (r.shift delta).inComment = r.inComment := by
  unfold shift close; split <;> rfl

theorem takeLine_inComment (r : Reader) (line : Text) : (r.takeLine line).1.inComment = r.inComment := by
  rcases hs : signature? (codeOf line) with _ | b'
  · rcases hb : r.block with _ | b'
    · rw [takeLine_of_closed hs hb]
    · rw [takeLine_of_block hs hb]; exact shift_inComment _ _
  · rw [takeLine_of_signature hs]
    dsimp only
    split <;> rfl

theorem step_of_dropped {r : Reader} {raw rest : Text} {flag : Bool} (h : uncomment r.inComment raw = (rest, flag))
    (hk : kept? rest = none) : r.step raw = ({ r with inComment := flag }, none) := by
  simp only [step, h, hk]

theorem step_of_kept {r : Reader} {raw rest line : Text} {flag : Bool}
    (h : uncomment r.inComment raw = (rest, flag)) (hk : kept? rest = some line) :
    r.step raw =
      (({ r with inComment := flag }.takeLine line).1,
        ({ r with inComment := flag }.takeLine line).2.map fun b => (b, line)) := by
  simp only [step, h, hk]

theorem step_inComment (r : Reader) (raw : Text) : (r.step raw).1.inComment = (uncomment r.inComment raw).2 := by
  rcases hu : uncomment r.inComment raw with ⟨rest, flag⟩
  rcases hk : kept? rest with _ | line
  · rw [step_of_dropped hu hk]
  · rw [step_of_kept hu hk]; exact takeLine_inComment _ _

/-- What is taken of a line, and by which block. -/
theorem step_snd {r : Reader} {raw text : Text} {b : Block} :
    (r.step raw).2 = some (b, text) ↔
      kept? (uncomment r.inComment raw).1 = some text ∧ signature? (codeOf text) = none ∧ r.block = some b ∧
        0 < r.depth ∧ (codeOf text).all isBraceOrBlank = false := by
  rcases hu : uncomment r.inComment raw with ⟨rest, flag⟩
  rcases hk : kept? rest with _ | line
  · rw [step_of_dropped hu hk]; simp
  · rw [step_of_kept hu hk]
    simp only [Option.map_eq_some_iff, takeLine_snd, Prod.mk.injEq, Option.some.injEq]
    constructor
    · intro h0
      obtain ⟨b', h, rfl, rfl⟩ := h0
      exact ⟨rfl, h⟩
    · intro h0
      obtain ⟨rfl, h⟩ := h0
      exact ⟨b, h, rfl, rfl⟩

/-! ## The first line of a block -/

/-- A reader in a block that was opened on one line. -/
def opened (b : Block) : Reader := { block := some b, depth := 1 }

end Reader

def opening (b : Block) : Text := signatureOf b ++ " \x7b".toList

/-- Wherever the reader stands outside comments, a signature opens its block. -/
theorem step_opening_of_code (b : Block) {r : Reader} (h : r.inComment = false) :
    r.step (opening b) = (.opened b, none) := by
  obtain ⟨hu, hk, hs, hd⟩ : uncomment false (opening b) = (opening b, false) ∧ kept? (opening b) = some (opening b) ∧
      signature? (codeOf (opening b)) = some b ∧ Zone.netBraces .code (codeOf (opening b)) = 1 := by
    cases b <;> decide +kernel
  rw [← h] at hu
  rw [Reader.step_of_kept hu hk, Reader.takeLine_of_signature hs, hd, if_neg (by simp), h]
  rfl

theorem step_opening (b : Block) : ({} : Reader).step (opening b) = (.opened b, none) := step_opening_of_code b rfl

end Sketch

end Breadboard
