/-
  Breadboard.Proofs.Sketch.Extent — which lines of a source without comments the blocks take.

  The reader is taken away: what it keeps between lines is said by the lines alone. A block
  is open before line `k` if it was last signed on a line `i` before it that did not close it
  at once, and if the braces from line `i` on have not come back to zero after they were
  positive at the end of a line (`Open`). The depth is the sum of these braces, those of the
  whole line `i` included. `Reader.Tracks` says so of a reader; one line keeps it
  (`Reader.Tracks.step`) and so do all (`Reader.tracks`).

  Proved: a line is taken by a block if and only if the block is open before it at a positive
  depth and the line has no signature and more than braces (`mem_block_iff`).
-/

import Mathlib
import Breadboard.Proofs.Sketch.Quoting
import Breadboard.Proofs.Sketch.Reading
import Breadboard.Proofs.Sketch.Scan

namespace Breadboard

namespace Sketch

theorem netBraces_append (z : Zone) (s t : Text) :
    Zone.netBraces z (s ++ t) = Zone.netBraces z s + Zone.netBraces (z.after s) t := by
  induction s generalizing z with
  | nil => simp [Zone.netBraces, Zone.after]
  | cons c s ih => simp only [List.cons_append, Zone.netBraces, ih, add_assoc]; rfl

theorem next_blank {c : Char} (h : Text.isBlank c = true) : Zone.code.next c = .code :=
  Zone.next_code (Text.ne_of_isBlank h (by decide))

theorem braceValue_blank {c : Char} (h : Text.isBlank c = true) : Zone.braceValue c = 0 := by
  unfold Zone.braceValue
  split <;> simp_all [Text.isBlank]

theorem after_gap {g : Text} (h : IsGap g) : Zone.code.after g = .code :=
  Zone.after_code (Text.not_mem_gap h (by decide))

theorem netBraces_gap {g : Text} (h : IsGap g) (z : Zone) : Zone.netBraces z g = 0 := by
  induction g generalizing z with
  | nil => rfl
  | cons c g ih =>
    rw [IsGap, List.forall_mem_cons] at h
    rw [Zone.netBraces, braceValue_blank h.1, ih h.2, ite_self, add_zero]

theorem netBraces_trim (t : Text) : Zone.netBraces .code (Text.trim t) = Zone.netBraces .code t := by
  obtain ⟨g, h, hg, hh, he⟩ := Text.exists_trim t
  conv_rhs => rw [he]
  rw [netBraces_append, netBraces_append, after_gap hg, netBraces_gap hg, netBraces_gap hh, zero_add, add_zero]

theorem mem_trim {t : Text} {c : Char} (hc : Text.isBlank c = false) : c ∈ Text.trim t ↔ c ∈ t := by
  obtain ⟨g, h, hg, hh, he⟩ := Text.exists_trim t
  conv_rhs => rw [he]
  simp [Text.not_mem_gap hg hc, Text.not_mem_gap hh hc]

theorem all_trim (t : Text) : (Text.trim t).all isBraceOrBlank = t.all isBraceOrBlank := by
  obtain ⟨g, h, hg, hh, he⟩ := Text.exists_trim t
  have hn : ∀ u : Text, IsGap u → u.all isBraceOrBlank = true := fun u hu => by
    rw [List.all_eq_true]
    intro c hc
    simp [isBraceOrBlank, hu c hc]
  conv_rhs => rw [he]
  rw [List.all_append, List.all_append, hn g hg, hn h hh, Bool.true_and, Bool.and_true]

/-! ## A line without comments -/

structure CommentFree (l : Text) : Prop where
  line : Zone.cutCode lineMark .code l = none
  block : Zone.cutCode openMark .code l = none

instance (l : Text) : Decidable (CommentFree l) :=
  decidable_of_iff (Zone.cutCode lineMark .code l = none ∧ Zone.cutCode openMark .code l = none)
    ⟨fun h => ⟨h.1, h.2⟩, fun h => ⟨h.line, h.block⟩⟩

theorem cutCode_cons_eq_none {pat : Text} {z : Zone} {c : Char} {t : Text} :
    Zone.cutCode pat z (c :: t) = none ↔
      (z = .code → Text.dropPrefix? pat (c :: t) = none) ∧ Zone.cutCode pat (z.next c) t = none := by
  rw [Zone.cutCode]
  by_cases hz : z = .code
  · rcases hd : Text.dropPrefix? pat (c :: t) with _ | rest <;> simp [hz]
  · simp [hz]

theorem cutCode_append_left {pat s t : Text} {z : Zone} (h : Zone.cutCode pat z (s ++ t) = none) :
    Zone.cutCode pat z s = none := by
  induction s generalizing z with
  | nil => rfl
  | cons c s ih =>
    rw [List.cons_append] at h
    obtain ⟨hd, hc⟩ := cutCode_cons_eq_none.1 h
    refine cutCode_cons_eq_none.2 ⟨fun hz => ?_, ih hc⟩
    rcases hr : Text.dropPrefix? pat (c :: s) with _ | rest
    · rfl
    · have hl : Text.dropPrefix? pat (c :: (s ++ t)) = some (rest ++ t) := by
        rw [Text.dropPrefix?_eq_some_iff] at hr ⊢
        rw [← List.cons_append, hr, List.append_assoc]
      rw [hd hz] at hl
      cases hl

theorem cutCode_gap {pat g t : Text} (hg : IsGap g) (h : Zone.cutCode pat .code (g ++ t) = none) :
    Zone.cutCode pat .code t = none := by
  induction g with
  | nil => exact h
  | cons c g ih =>
    rw [IsGap, List.forall_mem_cons] at hg
    have hc := (cutCode_cons_eq_none.1 h).2
    rw [next_blank hg.1] at hc
    exact ih hg.2 hc

theorem CommentFree.trim {l : Text} (h : CommentFree l) : CommentFree (Text.trim l) := by
  obtain ⟨g, g', hg, -, he⟩ := Text.exists_trim l
  have hl := h.line
  have hb := h.block
  rw [he] at hl hb
  exact ⟨cutCode_append_left (cutCode_gap hg hl), cutCode_append_left (cutCode_gap hg hb)⟩

theorem CommentFree.codeOf_trim {l : Text} (h : CommentFree l) : codeOf (Text.trim l) = Text.trim l := by
  rw [codeOf, uncommentTail, h.trim.line]
  exact Text.trim_trim l

theorem CommentFree.kept? {l : Text} (h : CommentFree l) :
    Sketch.kept? l = if Text.trim l = [] then none else some (Text.trim l) := by
  have hp : (Text.dropPrefix? lineMark (Text.trim l)).isSome = false := by
    have ht := h.trim.line
    generalize Text.trim l = u at ht ⊢
    cases u with
    | nil => rfl
    | cons c u => rw [(cutCode_cons_eq_none.1 ht).1 rfl]; rfl
  simp only [Sketch.kept?, hp, Bool.or_false, List.isEmpty_iff]

namespace Reader

theorem shift_zero (r : Reader) : r.shift 0 = r := by
  rw [shift, if_neg (by omega), add_zero]

theorem step_of_blank {r : Reader} {l : Text} (hr : r.inComment = false) (h : CommentFree l) (ht : Text.trim l = []) :
    r.step l = (r, none) := by
  have hu : uncomment r.inComment l = (l, r.inComment) := by rw [hr]; exact uncomment_of_not_cutCode h.block
  exact step_of_dropped hu (by rw [h.kept?, if_pos ht])

theorem step_of_code {r : Reader} {l : Text} (hr : r.inComment = false) (h : CommentFree l) (ht : Text.trim l ≠ []) :
    r.step l = ((r.takeLine (Text.trim l)).1, (r.takeLine (Text.trim l)).2.map fun b => (b, Text.trim l)) := by
  have hu : uncomment r.inComment l = (l, r.inComment) := by rw [hr]; exact uncomment_of_not_cutCode h.block
  exact step_of_kept hu (by rw [h.kept?, if_neg ht])

/-- The reader after a line without comments. A line without code is no exception: its braces add up to zero. -/
theorem step_fst {r : Reader} {l : Text} (hr : r.inComment = false) (h : CommentFree l) :
    (r.step l).1 =
      match signature? (Text.trim l) with
      | some b =>
        if '{' ∈ l ∧ Zone.netBraces .code l ≤ 0 then r.close
        else { r with block := some b, depth := Zone.netBraces .code l }
      | none =>
        match r.block with
        | none => r
        | some _ => r.shift (Zone.netBraces .code l) := by
  by_cases ht : Text.trim l = []
  · have hd : Zone.netBraces .code l = 0 := by rw [← netBraces_trim, ht]; rfl
    rw [step_of_blank hr h ht, ht, hd, shift_zero]
    cases r.block <;> rfl
  · rw [step_of_code hr h ht]
    rcases hs : signature? (Text.trim l) with _ | b
    · have hs' : signature? (codeOf (Text.trim l)) = none := by rw [h.codeOf_trim, hs]
      rcases hb : r.block with _ | b
      · rw [takeLine_of_closed hs' hb]
      · rw [takeLine_of_block hs' hb, h.codeOf_trim, netBraces_trim]
    · rw [takeLine_of_signature (by rw [h.codeOf_trim, hs]), h.codeOf_trim, netBraces_trim]
      simp only [mem_trim (show Text.isBlank '{' = false by decide)]

/-- What is taken of a line without comments. -/
theorem step_snd_iff {r : Reader} {l text : Text} {b : Block} (hr : r.inComment = false) (h : CommentFree l) :
    (r.step l).2 = some (b, text) ↔
      text = Text.trim l ∧ signature? (Text.trim l) = none ∧ r.block = some b ∧ 0 < r.depth ∧
        l.all isBraceOrBlank = false := by
  rw [step_snd, hr, uncomment_of_not_cutCode h.block, h.kept?]
  constructor
  · intro h0
    obtain ⟨hk, hs, hb, hd, hc⟩ := h0
    split at hk
    · cases hk
    · obtain rfl := Option.some.inj hk
      rw [h.codeOf_trim] at hs hc
      rw [all_trim] at hc
      exact ⟨rfl, hs, hb, hd, hc⟩
  · intro h0
    obtain ⟨rfl, hs, hb, hd, hc⟩ := h0
    have ht : Text.trim l ≠ [] := by
      intro ht
      rw [← all_trim, ht] at hc
      cases hc
    rw [if_neg ht, h.codeOf_trim, all_trim]
    exact ⟨rfl, hs, hb, hd, hc⟩

end Reader

/-! ## Open blocks -/

/-- Line `i` has a signature of the block. -/
def SignatureAt (ls : List Text) (b : Block) (i : Nat) : Prop :=
  ∃ l, ls[i]? = some l ∧ signature? (Text.trim l) = some b

instance (ls : List Text) (b : Block) (i : Nat) : Decidable (SignatureAt ls b i) :=
  decidable_of_iff ((ls[i]?.bind fun l => signature? (Text.trim l)) = some b) Option.bind_eq_some_iff

/-- Opening less closing braces of the lines from `i` up to `k`. -/
def braces (ls : List Text) (i k : Nat) : Int := (((ls.take k).drop i).map (Zone.netBraces .code)).sum

/-- The block was last signed on line `i` and is open before line `k`. -/
structure Open (ls : List Text) (b : Block) (i k : Nat) : Prop where
  before : i < k
  signature : SignatureAt ls b i
  last : ∀ j b', i < j → j < k → ¬ SignatureAt ls b' j
  /-- An opening brace on the line itself must still be open at its end. -/
  opens : ∀ l, ls[i]? = some l → '{' ∈ l → 0 < braces ls i (i + 1)
  stays : ∀ j j', i < j → j ≤ j' → j' ≤ k → 0 < braces ls i j → 0 < braces ls i j'

variable {ls : List Text} {b : Block} {i k : Nat}

theorem braces_self : braces ls i i = 0 := by
  rw [braces, List.drop_of_length_le (List.length_take_le i ls)]
  rfl

theorem braces_succ {l : Text} (hik : i ≤ k) (hl : ls[k]? = some l) :
    braces ls i (k + 1) = braces ls i k + Zone.netBraces .code l := by
  have hk := (List.getElem?_eq_some_iff.1 hl).1
  have hi : i ≤ (ls.take k).length := by rw [List.length_take]; omega
  rw [braces, List.take_add_one, hl, Option.toList_some, List.drop_append_of_le_length hi,
    List.map_append, List.sum_append]
  simp [braces]

theorem SignatureAt.lt_length (h : SignatureAt ls b i) : i < ls.length := by
  obtain ⟨l, hl, -⟩ := h
  exact (List.getElem?_eq_some_iff.1 hl).1

theorem SignatureAt.unique {b' : Block} (h : SignatureAt ls b i) (h' : SignatureAt ls b' i) : b = b' := by
  obtain ⟨l, hl, hs⟩ := h
  obtain ⟨l', hl', hs'⟩ := h'
  rw [hl] at hl'
  rw [← Option.some.inj hl', hs] at hs'
  exact Option.some.inj hs'

theorem not_signatureAt {l : Text} (hl : ls[k]? = some l) (hs : signature? (Text.trim l) = none) (b : Block) :
    ¬ SignatureAt ls b k := by
  intro h0
  obtain ⟨l', hl', hs'⟩ := h0
  rw [hl] at hl'
  rw [← Option.some.inj hl', hs] at hs'
  cases hs'

/-- How a block comes to be open after one more line. -/
theorem open_succ :
    Open ls b i (k + 1) ↔
      (i = k ∧ SignatureAt ls b k ∧ ∀ l, ls[k]? = some l → '{' ∈ l → 0 < braces ls k (k + 1)) ∨
      (Open ls b i k ∧ (∀ b', ¬ SignatureAt ls b' k) ∧ (0 < braces ls i k → 0 < braces ls i (k + 1))) := by
  constructor
  · intro h
    rcases Nat.lt_succ_iff_lt_or_eq.1 h.before with hik | rfl
    · refine Or.inr ⟨⟨hik, h.signature, fun j b' hj hjk => h.last j b' hj (by omega), h.opens, ?_⟩, ?_, ?_⟩
      · exact fun j j' hj hjj hjk => h.stays j j' hj hjj (by omega)
      · exact fun b' => h.last k b' hik (Nat.lt_succ_self k)
      · exact h.stays k (k + 1) hik (Nat.le_succ k) (Nat.le_refl _)
    · exact Or.inl ⟨rfl, h.signature, h.opens⟩
  · intro h0
    rcases h0 with ⟨rfl, hs, ho⟩ | ⟨h, hs, hc⟩
    · refine ⟨Nat.lt_succ_self i, hs, fun j b' hj hjk => by omega, ho, fun j j' hj hjj hjk => ?_⟩
      rw [show j' = j by omega]
      exact id
    · refine ⟨by have := h.before; omega, h.signature, fun j b' hj hjk => ?_, h.opens, fun j j' hj hjj hjk hp => ?_⟩
      · rcases Nat.lt_succ_iff_lt_or_eq.1 hjk with hjk | rfl
        · exact h.last j b' hj hjk
        · exact hs b'
      · rcases Nat.lt_succ_iff_lt_or_eq.1 (Nat.lt_succ_of_le hjk) with hjk' | rfl
        · exact h.stays j j' hj hjj (by omega) hp
        · rcases Nat.lt_succ_iff_lt_or_eq.1 (Nat.lt_succ_of_le hjj) with hjj' | rfl
          · exact hc (h.stays j k hj (by omega) (Nat.le_refl k) hp)
          · exact hp

/-- The reader before line `k`, as the lines say it. -/
structure Reader.Tracks (r : Reader) (ls : List Text) (k : Nat) : Prop where
  inComment : r.inComment = false
  block : ∀ b, r.block = some b ↔ ∃ i, Open ls b i k
  depth : ∀ b i, Open ls b i k → r.depth = braces ls i k

theorem Reader.tracks_of_closed {r : Reader} (hr : r.inComment = false) (hb : r.block = none)
    (hno : ∀ b i, ¬ Open ls b i k) : r.Tracks ls k := by
  refine ⟨hr, fun b => ⟨fun h => ?_, fun ⟨i, ho⟩ => absurd ho (hno b i)⟩, fun b i ho => absurd ho (hno b i)⟩
  rw [hb] at h
  cases h

/-- A line without a signature keeps an open block open, unless its braces close it. -/
theorem Reader.Tracks.step_unsigned {r : Reader} {l : Text} (h : r.Tracks ls k) (hl : ls[k]? = some l)
    (hc : CommentFree l) (hs : signature? (Text.trim l) = none) : (r.step l).1.Tracks ls (k + 1) := by
  have hns := not_signatureAt hl hs
  have hopen : ∀ {b i}, Open ls b i (k + 1) → Open ls b i k ∧ (0 < braces ls i k → 0 < braces ls i (k + 1)) := by
    intro b i ho
    rcases open_succ.1 ho with ⟨-, hsk, -⟩ | ⟨ho, -, hp⟩
    · exact absurd hsk (hns b)
    · exact ⟨ho, hp⟩
  have hsum : ∀ {b i}, Open ls b i k → braces ls i (k + 1) = r.depth + Zone.netBraces .code l := by
    intro b i ho
    rw [braces_succ ho.before.le hl, h.depth b i ho]
  have hstep := Reader.step_fst h.inComment hc
  rw [hs] at hstep
  rcases hb : r.block with _ | b₀
  · -- No block is open before the line, so none is after it.
    have hno : ∀ b i, ¬ Open ls b i k := fun b i ho => by
      have := (h.block b).2 ⟨i, ho⟩
      rw [hb] at this
      cases this
    rw [hb] at hstep
    rw [hstep]
    exact tracks_of_closed h.inComment hb fun b i ho => hno b i (hopen ho).1
  · rw [hb] at hstep
    obtain ⟨i₀, ho₀⟩ := (h.block b₀).1 hb
    by_cases hcl : 0 < r.depth ∧ r.depth + Zone.netBraces .code l ≤ 0
    · have hno : ∀ b i, ¬ Open ls b i (k + 1) := fun b i ho => by
        obtain ⟨ho, hp⟩ := hopen ho
        rw [hsum ho, ← h.depth b i ho] at hp
        exact absurd (hp hcl.1) (by omega)
      have hclose : (r.step l).1 = r.close := by rw [hstep, Reader.shift, if_pos hcl]
      rw [hclose]
      exact tracks_of_closed h.inComment rfl hno
    · have hgo : (r.step l).1 = { r with depth := r.depth + Zone.netBraces .code l } := by
        rw [hstep, Reader.shift, if_neg hcl]
      rw [hgo]
      refine ⟨h.inComment, fun b => ⟨fun hx => ?_, fun ⟨i, ho⟩ => (h.block b).2 ⟨i, (hopen ho).1⟩⟩,
        fun b i ho => (hsum (hopen ho).1).symm⟩
      obtain ⟨i, ho⟩ := (h.block b).1 hx
      refine ⟨i, open_succ.2 (Or.inr ⟨ho, hns, fun hp => ?_⟩)⟩
      rw [hsum ho]
      rw [← h.depth b i ho] at hp
      omega

/-- A line with a signature opens its block, unless it closes it at once. -/
theorem Reader.Tracks.step_signed {r : Reader} {l : Text} {b₀ : Block} (h : r.Tracks ls k) (hl : ls[k]? = some l)
    (hc : CommentFree l) (hs : signature? (Text.trim l) = some b₀) : (r.step l).1.Tracks ls (k + 1) := by
  have hsk : SignatureAt ls b₀ k := ⟨l, hl, hs⟩
  have hself : braces ls k (k + 1) = Zone.netBraces .code l := by
    rw [braces_succ (Nat.le_refl k) hl, braces_self, zero_add]
  have hopen : ∀ {b i}, Open ls b i (k + 1) → b = b₀ ∧ i = k ∧ ('{' ∈ l → 0 < Zone.netBraces .code l) := by
    intro b i ho
    rcases open_succ.1 ho with ⟨rfl, hb, hp⟩ | ⟨-, hns, -⟩
    · rw [hself] at hp
      exact ⟨hb.unique hsk, rfl, hp l hl⟩
    · exact absurd hsk (hns b₀)
  have hstep := Reader.step_fst h.inComment hc
  rw [hs] at hstep
  dsimp only at hstep
  by_cases hcl : '{' ∈ l ∧ Zone.netBraces .code l ≤ 0
  · have hno : ∀ b i, ¬ Open ls b i (k + 1) := fun b i ho => by
      have := (hopen ho).2.2 hcl.1
      omega
    rw [hstep, if_pos hcl]
    exact tracks_of_closed h.inComment rfl hno
  · rw [hstep, if_neg hcl]
    refine ⟨h.inComment, fun b => ⟨fun hx => ?_, fun ⟨i, ho⟩ => congrArg some (hopen ho).1.symm⟩, fun b i ho => ?_⟩
    · obtain rfl : b₀ = b := Option.some.inj hx
      refine ⟨k, open_succ.2 (Or.inl ⟨rfl, hsk, fun l' hl' hm => ?_⟩)⟩
      rw [hl] at hl'
      obtain rfl := Option.some.inj hl'
      rw [hself]
      by_contra hn
      exact hcl ⟨hm, by omega⟩
    · rw [(hopen ho).2.1, hself]

theorem Reader.Tracks.step {r : Reader} {l : Text} (h : r.Tracks ls k) (hl : ls[k]? = some l) (hc : CommentFree l) :
    (r.step l).1.Tracks ls (k + 1) := by
  rcases hs : signature? (Text.trim l) with _ | b₀
  · exact h.step_unsigned hl hc hs
  · exact h.step_signed hl hc hs

/-- Reading lines without comments keeps the reader in step with what they say. -/
theorem Reader.tracks (hc : ∀ l ∈ ls, CommentFree l) (hk : k ≤ ls.length) :
    (({} : Reader).readFrom 1 (ls.take k)).1.Tracks ls k := by
  induction k with
  | zero => exact tracks_of_closed rfl rfl fun b i ho => Nat.not_lt_zero i ho.before
  | succ k ih =>
    have hl : ls[k]? = some ls[k] := List.getElem?_eq_getElem hk
    rw [List.take_add_one, hl, Option.toList_some, readFrom_append, readFrom_cons]
    exact (ih (by omega)).step hl (hc _ (List.getElem_mem hk))

/-! ## Lines that are taken -/

/-- Line `k` is taken by the block that was last signed on line `i`. -/
structure Taken (ls : List Text) (b : Block) (i k : Nat) : Prop where
  isOpen : Open ls b i k
  deep : 0 < braces ls i k
  unsigned : ∀ b', ¬ SignatureAt ls b' k
  code : ∃ l, ls[k]? = some l ∧ l.all isBraceOrBlank = false

/-- The nodes of a block are its taken lines, each with its number, its text and its statement. -/
theorem mem_block_iff (hc : ∀ l ∈ ls, CommentFree l) {x : Node} :
    x ∈ (({} : Reader).readFrom 1 ls).2.block b ↔
      ∃ i k l, ls[k]? = some l ∧ Taken ls b i k ∧ x = ⟨Statement.ofLine (Text.trim l), Text.trim l, k + 1⟩ := by
  rw [Reader.mem_readFrom]
  have hline : ∀ {k l text}, ls[k]? = some l →
      (((({} : Reader).readFrom 1 (ls.take k)).1.step l).2 = some (b, text) ↔
        text = Text.trim l ∧ ∃ i, Taken ls b i k) := by
    intro k l text hl
    have hk := (List.getElem?_eq_some_iff.1 hl).1
    have ht := Reader.tracks hc hk.le
    rw [Reader.step_snd_iff ht.inComment (hc l (List.mem_of_getElem? hl)), ht.block]
    constructor
    · intro h0
      obtain ⟨rfl, hs, ⟨i, ho⟩, hd, hcode⟩ := h0
      rw [ht.depth b i ho] at hd
      exact ⟨rfl, i, ho, hd, not_signatureAt hl hs, l, hl, hcode⟩
    · intro h0
      obtain ⟨rfl, i, hi⟩ := h0
      refine ⟨rfl, ?_, ⟨i, hi.isOpen⟩, ?_, ?_⟩
      · rcases hs : signature? (Text.trim l) with _ | b'
        · rfl
        · exact absurd ⟨l, hl, hs⟩ (hi.unsigned b')
      · rw [ht.depth b i hi.isOpen]
        exact hi.deep
      · obtain ⟨l', hl', hcode⟩ := hi.code
        rw [hl] at hl'
        rwa [Option.some.inj hl']
  constructor
  · intro h0
    obtain ⟨k, l, text, hl, hs, rfl⟩ := h0
    obtain ⟨rfl, i, hi⟩ := (hline hl).1 hs
    exact ⟨i, k, l, hl, hi, by rw [Nat.add_comm]⟩
  · intro h0
    obtain ⟨i, k, l, hl, hi, rfl⟩ := h0
    exact ⟨k, l, Text.trim l, hl, (hline hl).2 ⟨rfl, i, hi⟩, by rw [Nat.add_comm]⟩

end Sketch

end Breadboard
