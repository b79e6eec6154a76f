/-
  Breadboard.Proofs.Sketch.Nesting — how far a block goes when braces nest in it.

  A block is open from the end of the line with its opening brace, which is that of the signature
  (`Opening.here`) or the next one (`Opening.below`), up to the line on which the braces from the
  signature on come back to zero (`lastLine`). In between the sum of these braces is positive
  before every line (`braces_pos`), whatever is opened and closed on the way, and so the state of
  the reader need not be followed: `Open` says it of the lines.

  Proved: of the lines in between the block takes exactly those with more than braces and blanks,
  the one that closes it among them, and the lines behind it are not taken up to the next
  signature (`block_extent`).
-/

import Mathlib
import Breadboard.Proofs.Sketch.Alignment
import Breadboard.Proofs.Sketch.Extent

namespace Breadboard.Sketch

variable {ls : List Text} {b : Block} {i o j k : Nat}

/-! ## The lines of a block -/

/-- A block with its signature on line `i` is open from the end of a line on. -/
inductive Opening (ls : List Text) (i : Nat) : Nat → Prop
  /-- On its line the signature leaves a brace open. -/
  | here {l : Text} : ls[i]? = some l → 1 ≤ Zone.netBraces .code l → Opening ls i i
  /-- The line of the signature has no brace, and the next one has nothing else. -/
  | below {l m : Text} : ls[i]? = some l → '{' ∉ l → '}' ∉ l → ls[i + 1]? = some m →
      m.all isBraceOrBlank = true → 1 ≤ Zone.netBraces .code m → Opening ls i (i + 1)

/-- Where a block ends that is signed on line `i` and open from line `o` on: on the first line behind `o` by whose end
the braces from line `i` on are back at zero or below, or else on the last line of all. -/
def lastLine (ls : List Text) (i o : Nat) : Nat :=
  ((List.range' (o + 1) (ls.length - (o + 1))).find? fun j => decide (braces ls i (j + 1) ≤ 0)).getD (ls.length - 1)

/-- A line as a node, if there is more than braces and blanks on it. -/
def codeNode? (ls : List Text) (k : Nat) : Option Node :=
  ls[k]?.bind fun l => if l.all isBraceOrBlank then none else some ⟨Statement.ofLine l, Text.trim l, k + 1⟩

/-- What the lines behind line `i` up to line `j` are as nodes. -/
def codeNodes (ls : List Text) (i j : Nat) : List Node := (List.range' (i + 1) (j - i)).filterMap (codeNode? ls)

/-- The nodes that come from lines behind line `i` up to line `j`. -/
def between (i j : Nat) (nodes : List Node) : List Node := nodes.filter fun x => i + 1 < x.line ∧ x.line ≤ j + 1

theorem netBraces_of_not_mem {z : Zone} {l : Text} (ho : '{' ∉ l) (hc : '}' ∉ l) : Zone.netBraces z l = 0 := by
  induction l generalizing z with
  | nil => rfl
  | cons c l ih =>
    rw [List.mem_cons, not_or] at ho hc
    have hv : Zone.braceValue c = 0 := by
      unfold Zone.braceValue
      split <;> simp_all
    rw [Zone.netBraces, hv, ite_self, ih ho.2 hc.2, zero_add]

theorem codeNode?_eq_some_iff {x : Node} :
    codeNode? ls k = some x ↔
      ∃ l, ls[k]? = some l ∧ l.all isBraceOrBlank = false ∧ x = ⟨Statement.ofLine l, Text.trim l, k + 1⟩ := by
  unfold codeNode?
  rcases hl : ls[k]? with _ | l
  · simp
  · simp only [Option.bind_some, Option.some.injEq, exists_eq_left']
    by_cases hc : l.all isBraceOrBlank = true
    · rw [if_pos hc, hc]
      simp
    · rw [if_neg hc, Bool.eq_false_of_not_eq_true hc, Option.some.injEq, eq_comm]
      simp

theorem mem_codeNodes {x : Node} :
    x ∈ codeNodes ls i j ↔
      ∃ k l, i < k ∧ k ≤ j ∧ ls[k]? = some l ∧ l.all isBraceOrBlank = false ∧
        x = ⟨Statement.ofLine l, Text.trim l, k + 1⟩ := by
  simp only [codeNodes, List.mem_filterMap, List.mem_range'_1, codeNode?_eq_some_iff]
  constructor
  · intro h0
    obtain ⟨k, hk, l, h⟩ := h0
    exact ⟨k, l, by omega, by omega, h⟩
  · intro h0
    obtain ⟨k, l, hi, hj, h⟩ := h0
    exact ⟨k, by omega, l, h⟩

theorem pairwise_codeNodes (ls : List Text) (i j : Nat) : (codeNodes ls i j).Pairwise (·.line < ·.line) := by
  refine List.Pairwise.filterMap _ (fun k k' hk x hx y hy => ?_) List.pairwise_lt_range'
  obtain ⟨-, -, -, rfl⟩ := codeNode?_eq_some_iff.1 hx
  obtain ⟨-, -, -, rfl⟩ := codeNode?_eq_some_iff.1 hy
  show k + 1 < k' + 1
  omega

/-- Nodes in the order of their lines are known by which they are. -/
theorem eq_of_pairwise_line {xs ys : List Node} (hx : xs.Pairwise (·.line < ·.line))
    (hy : ys.Pairwise (·.line < ·.line)) (h : ∀ x, x ∈ xs ↔ x ∈ ys) : xs = ys := by
  have nodup : ∀ {zs : List Node}, zs.Pairwise (·.line < ·.line) → zs.Nodup := fun hz =>
    hz.imp fun {a b} hab heq => by rw [heq] at hab; exact Nat.lt_irrefl _ hab
  have perm : xs.Perm ys := (List.perm_ext_iff_of_nodup (nodup hx) (nodup hy)).2 h
  refine perm.eq_of_pairwise (fun a b _ _ hab hba => ?_) hx hy
  exact absurd hab (Nat.lt_asymm hba)

/-! ## Where a block ends -/

theorem lastLine_cases (ho : o < ls.length) :
    o ≤ lastLine ls i o ∧ (∀ m, o < m → m < lastLine ls i o → 0 < braces ls i (m + 1)) ∧
      (o < lastLine ls i o ∧ braces ls i (lastLine ls i o + 1) ≤ 0 ∨ lastLine ls i o + 1 = ls.length) := by
  unfold lastLine
  rcases hf : (List.range' (o + 1) (ls.length - (o + 1))).find? fun j => decide (braces ls i (j + 1) ≤ 0) with _ | j
  · rw [List.find?_eq_none] at hf
    rw [Option.getD_none]
    refine ⟨by omega, fun m hom hm => ?_, Or.inr (by omega)⟩
    have := hf m (List.mem_range'_1.2 (by omega))
    simpa using this
  · obtain ⟨hend, hmem, hfirst⟩ := List.find?_range'_eq_some.1 hf
    rw [List.mem_range'_1] at hmem
    rw [Option.getD_some]
    refine ⟨by omega, fun m hom hm => ?_, Or.inl ⟨by omega, by simpa using hend⟩⟩
    simpa using hfirst m hom hm

theorem Opening.lt_length (h : Opening ls i o) : o < ls.length := by
  cases h with
  | here hl => exact (List.getElem?_eq_some_iff.1 hl).1
  | below _ _ _ hm => exact (List.getElem?_eq_some_iff.1 hm).1

/-- At the end of the line with the opening brace a brace is open. -/
theorem Opening.braces_pos (h : Opening ls i o) : i ≤ o ∧ 0 < braces ls i (o + 1) := by
  cases h with
  | here hl hn =>
    rw [braces_succ (Nat.le_refl i) hl, braces_self]
    exact ⟨Nat.le_refl i, by omega⟩
  | below hl ho hc hm _ hn =>
    rw [braces_succ (Nat.le_succ i) hm, braces_succ (Nat.le_refl i) hl, braces_self, netBraces_of_not_mem ho hc]
    exact ⟨Nat.le_succ i, by omega⟩

/-- From the end of the line that opens a block up to its last line a brace is open. -/
theorem braces_pos (h : Opening ls i o) (hk : o < k) (hkj : k ≤ lastLine ls i o) : 0 < braces ls i k := by
  obtain ⟨m, rfl⟩ : ∃ m, k = m + 1 := ⟨k - 1, by omega⟩
  by_cases hm : m = o
  · rw [hm]
    exact h.braces_pos.2
  · exact (lastLine_cases h.lt_length).2.1 m (by omega) hkj

/-! ## The lines that are taken -/

/-- A block that is open somewhere behind a signature, with no other one in between, is the block of that signature. -/
theorem eq_of_open {b' : Block} {i' : Nat} (signed : SignatureAt ls b i) (h : Open ls b' i' k) (hik : i < k)
    (only : ∀ m b', i < m → m < k → ¬ SignatureAt ls b' m) : b' = b ∧ i' = i := by
  have hii : i' = i := by
    rcases Nat.lt_trichotomy i' i with hlt | heq | hgt
    · exact absurd signed (h.last i b hlt hik)
    · exact heq
    · exact absurd h.signature (only i' b' hgt h.before)
  exact ⟨(hii ▸ h.signature).unique signed, hii⟩

section

variable (signed : SignatureAt ls b i) (opening : Opening ls i o)
  (alone : ∀ k b', i < k → k ≤ lastLine ls i o → ¬ SignatureAt ls b' k)

include signed opening alone

theorem open_of_le (hik : i < k) (hkj : k ≤ lastLine ls i o) : Open ls b i k where
  before := hik
  signature := signed
  last m b' him hmk := alone m b' him (by omega)
  opens l hl hbrace := by
    cases opening with
    | here hl' hn =>
      rw [braces_succ (Nat.le_refl i) hl', braces_self]
      omega
    | below hl' ho =>
      rw [hl] at hl'
      obtain rfl := Option.some.inj hl'
      exact absurd hbrace ho
  stays m m' him hmm hmk hpos := by
    by_cases hom : o < m'
    · exact braces_pos opening hom (by omega)
    · -- Only the line between a signature and its brace comes before the opening is over.
      have hio : o ≤ i + 1 := by cases opening <;> omega
      obtain rfl : m = m' := by omega
      exact hpos

theorem taken_iff {b' : Block} (hik : i < k) (hkj : k ≤ lastLine ls i o) :
    (∃ i', Taken ls b' i' k) ↔ b' = b ∧ ∃ l, ls[k]? = some l ∧ l.all isBraceOrBlank = false := by
  constructor
  · intro h0
    obtain ⟨i', h⟩ := h0
    exact ⟨(eq_of_open signed h.isOpen hik fun m b' him hmk => alone m b' him (by omega)).1, h.code⟩
  · intro h0
    obtain ⟨rfl, l, hl, hcode⟩ := h0
    have hok : o < k := by
      cases opening with
      | here => exact hik
      | below _ _ _ hm hblank =>
        refine Nat.lt_of_le_of_ne hik fun heq => ?_
        rw [heq, hl] at hm
        rw [Option.some.inj hm, hblank] at hcode
        cases hcode
    exact ⟨i, open_of_le signed opening alone hik hkj, braces_pos opening hok hkj, fun b' => alone k b' hik hkj, l, hl,
      hcode⟩

/-- Behind its last line a block is closed. -/
theorem not_taken_behind (hjk : lastLine ls i o < k)
    (only : ∀ m b', lastLine ls i o < m → m ≤ k → ¬ SignatureAt ls b' m) {b' : Block} {i' : Nat} :
    ¬ Taken ls b' i' k := by
  intro h
  obtain ⟨hoj, -, hend⟩ := lastLine_cases (i := i) opening.lt_length
  have hio := opening.braces_pos.1
  have alone' : ∀ m b', i < m → m < k → ¬ SignatureAt ls b' m := by
    intro m b' him hmk
    by_cases hm : m ≤ lastLine ls i o
    · exact alone m b' him hm
    · exact only m b' (by omega) (by omega)
  obtain ⟨rfl, rfl⟩ := eq_of_open signed h.isOpen (by omega) alone'
  rcases hend with ⟨hlt, hzero⟩ | hlast
  · have hpos := h.isOpen.stays (lastLine ls i' o) (lastLine ls i' o + 1) (by omega) (Nat.le_succ _) hjk
      (braces_pos opening hlt (Nat.le_refl _))
    omega
  · obtain ⟨l, hl, -⟩ := h.code
    have := (List.getElem?_eq_some_iff.1 hl).1
    omega

end

theorem CommentFree.ofLine_trim {l : Text} (h : CommentFree l) :
    Statement.ofLine (Text.trim l) = Statement.ofLine l := by
  have hcode : bareCode (Text.trim l) = bareCode l := by
    simp only [bareCode, uncommentTail, h.line, h.trim.line, Text.trim_trim]
  simp only [Statement.ofLine, Statement.ofLine?, hcode]

/-- In a source without comments, let a line carry the signature of a block and leave a brace open, or have no brace and
be followed by a line with only braces and blanks that leaves one open. Up to the line on which the braces from the
signature on come back to zero, or else to the last line, let there be no other signature. Then the nodes that come from
the lines behind the signature up to there are those of its block alone: one for each line with more than braces and
blanks, in order, with the number, the text and the statement of the line. And no line behind gives a node as long as
there is no signature. -/
theorem block_extent (source : Text) (commentFree : ∀ l ∈ Text.lines source, CommentFree l) (b : Block) (i o : Nat)
    (signed : SignatureAt (Text.lines source) b i) (opening : Opening (Text.lines source) i o) :
    let lines := Text.lines source
    let program := Program.ofSource source
    let j := lastLine lines i o
    (∀ k b', i < k → k ≤ j → ¬ SignatureAt lines b' k) →
      between i j (program.block b) = codeNodes lines i j ∧
      (∀ b', b' ≠ b → between i j (program.block b') = []) ∧
      ∀ k, j < k → (∀ m b', j < m → m ≤ k → ¬ SignatureAt lines b' m) →
        ∀ b', ∀ x ∈ program.block b', x.line ≠ k + 1 := by
  intro lines program j alone
  have mem : ∀ {b' x}, x ∈ program.block b' ↔
      ∃ i' k l, lines[k]? = some l ∧ Taken lines b' i' k ∧ x = ⟨Statement.ofLine (Text.trim l), Text.trim l, k + 1⟩ :=
    mem_block_iff commentFree
  have inside : ∀ b' x, x ∈ between i j (program.block b') ↔ b' = b ∧ x ∈ codeNodes lines i j := by
    intro b' x
    rw [between, List.mem_filter, mem, mem_codeNodes]
    constructor
    · intro h0
      obtain ⟨⟨i', k, l, hl, taken, rfl⟩, hline⟩ := h0
      obtain ⟨hik, hkj⟩ : i < k ∧ k ≤ j := by simpa using hline
      obtain ⟨hb, l', hl', hcode⟩ := (taken_iff signed opening alone hik hkj).1 ⟨i', taken⟩
      rw [hl] at hl'
      obtain rfl := Option.some.inj hl'
      rw [(commentFree l (List.mem_of_getElem? hl)).ofLine_trim]
      exact ⟨hb, k, l, hik, hkj, hl, hcode, rfl⟩
    · intro h0
      obtain ⟨hb, k, l, hik, hkj, hl, hcode, rfl⟩ := h0
      obtain ⟨i', taken⟩ := (taken_iff signed opening alone hik hkj).2 ⟨hb, l, hl, hcode⟩
      refine ⟨⟨i', k, l, hl, taken, ?_⟩, by simp [hik, hkj]⟩
      rw [(commentFree l (List.mem_of_getElem? hl)).ofLine_trim]
  refine ⟨?_, ?_, ?_⟩
  · have ordered : (program.block b).Pairwise (·.line < ·.line) :=
      List.pairwise_map.1 (Reader.pairwise_readFrom {} 1 lines b)
    refine eq_of_pairwise_line (ordered.filter _) (pairwise_codeNodes lines i j) fun x => ?_
    rw [inside]
    exact and_iff_right rfl
  · intro b' hb
    rw [List.eq_nil_iff_forall_not_mem]
    intro x hx
    exact hb ((inside b' x).1 hx).1
  · intro k hjk only b' x hx hline
    obtain ⟨i', k', l, hl, taken, rfl⟩ := mem.1 hx
    obtain rfl : k' = k := by
      have : k' + 1 = k + 1 := hline
      omega
    exact not_taken_behind signed opening alone hjk only taken

/-- The brace stands below the signature, another pair opens and closes in the block, and the last line of it has both
a statement and the braces that close the two. -/
theorem block_extent_blink :
    let source := ("void loop()\n\x7b\n  while (on) \x7b\n\n    Serial.print(\"\x7d\");\n    delay(5); \x7d \x7d\n" ++
      "delay(1);\n\x7d\n").toList
    let lines := Text.lines source
    (∀ l ∈ lines, CommentFree l) ∧ SignatureAt lines .loop 0 ∧ Opening lines 0 1 ∧ lastLine lines 0 1 = 5 ∧
      (∀ k b', 0 < k → k ≤ 5 → ¬ SignatureAt lines b' k) ∧
      between 0 5 (Program.ofSource source).loop =
        [⟨.unrecognized, "while (on) \x7b".toList, 3⟩, ⟨.print "\x7d".toList false, "Serial.print(\"\x7d\");".toList, 5⟩,
          ⟨.unrecognized, "delay(5); \x7d \x7d".toList, 6⟩] ∧
      between 0 5 (Program.ofSource source).setup = [] ∧ ∀ x ∈ (Program.ofSource source).loop, x.line ≠ 7 := by
  intro source lines
  have commentFree : ∀ l ∈ lines, CommentFree l := by decide +kernel
  have signed : SignatureAt lines .loop 0 := by decide +kernel
  have opening : Opening lines 0 1 :=
    .below (l := "void loop()".toList) (m := "\x7b".toList) (by decide +kernel) (by decide) (by decide)
      (by decide +kernel) (by decide) (by decide)
  have last : lastLine lines 0 1 = 5 := by decide +kernel
  have setup : ∀ k ≤ 8, ¬ SignatureAt lines .setup k := by decide +kernel
  have loop : ∀ k ≤ 8, 0 < k → ¬ SignatureAt lines .loop k := by decide +kernel
  have alone : ∀ k b', 0 < k → k ≤ 8 → ¬ SignatureAt lines b' k := by
    intro k b' hpos hk
    cases b' with
    | setup => exact setup k hk
    | loop => exact loop k hk hpos
  have extent := block_extent source commentFree .loop 0 1 signed opening
  dsimp only at extent
  rw [last] at extent
  obtain ⟨taken, others, behind⟩ := extent fun k b' hpos hk => alone k b' hpos (by omega)
  have closed : ∀ x ∈ (Program.ofSource source).loop, x.line ≠ 7 :=
    behind 6 (by omega) (fun m b' _ hm => alone m b' (by omega) (by omega)) .loop
  exact ⟨commentFree, signed, opening, last, fun k b' hpos hk => alone k b' hpos (by omega),
    taken.trans (by decide +kernel), others .setup (by simp), closed⟩

end Breadboard.Sketch
