/-
  Breadboard.Proofs.Sketch.Spot — where the characters of a source stand.

  `Spot` follows the usual rules over a whole source, one character after the other: a slash
  and a star open a block comment, two slashes a line comment, whichever comes first; strings
  and line comments end with their line. `remarks` are the texts of the line comments.

  The reader's own scan starts anew on each line and knows no line comments. Outside of them
  it stands where `Spot` says (`pass_next` for one character, `pass_after` for a stretch of
  a line). A line comment is harmless if the scan leaves its two slashes where they are and
  comes to its end outside block comments; past harmless comments the two agree on every line
  (`inComment_readFrom`).
-/

import Mathlib
import Breadboard.Proofs.Sketch.Reading
import Breadboard.Proofs.Sketch.Scan

namespace Breadboard.Sketch

inductive Spot where
  | plain (zone : Zone)
  /-- After a slash in code. -/
  | slash
  | block
  /-- After a star in a block comment. -/
  | star
  | remark
  deriving DecidableEq, Repr

/-- The scan that removes block comments keeps this line comment and goes on in code after it. -/
def Harmless (t : Text) : Prop := ∃ u, uncomment false (lineMark ++ t) = (lineMark ++ u, false)

namespace Spot

def next : Spot → Char → Spot
  | plain .code, '/' => slash
  | plain _, '\n' => plain .code
  | plain z, c => plain (z.next c)
  | slash, '/' => remark
  | slash, '*' => block
  | slash, '\n' => plain .code
  | slash, c => plain (Zone.code.next c)
  | block, '*' => star
  | block, _ => block
  | star, '/' => plain .code
  | star, '*' => star
  | star, _ => block
  | remark, '\n' => plain .code
  | remark, _ => remark

def after (s : Spot) (t : Text) : Spot := t.foldl next s

/-- In code: outside strings and comments. -/
def InCode : Spot → Prop
  | plain z => z = .code
  | slash => True
  | _ => False

def inBlock : Spot → Bool
  | block | star => true
  | _ => false

/-- The texts of the line comments of a source. -/
def remarks : Spot → Text → List Text
  | _, [] => []
  | s, c :: t =>
    if s = slash ∧ c = '/' then t.takeWhile (· ≠ '\n') :: remarks remark t else remarks (s.next c) t

def ofFlag (inComment : Bool) : Spot := if inComment then block else plain .code

@[simp] theorem after_cons (s : Spot) (c : Char) (t : Text) : s.after (c :: t) = (s.next c).after t := rfl

theorem InCode.cases {s : Spot} (h : s.InCode) : s = plain .code ∨ s = slash := by
  cases s with
  | plain z => exact Or.inl (congrArg plain h)
  | slash => exact Or.inr rfl
  | block => exact absurd h id
  | star => exact absurd h id
  | remark => exact absurd h id

theorem after_append (s : Spot) (t u : Text) : s.after (t ++ u) = (s.after t).after u := List.foldl_append

/-! ## One character -/

theorem next_newline (s : Spot) : s.next '\n' = ofFlag s.inBlock := by
  rcases s with (_ | _ | _) | _ | _ | _ | _ <;> rfl

theorem inBlock_next_return (s : Spot) : (s.next '\r').inBlock = s.inBlock := by
  rcases s with (_ | _ | _) | _ | _ | _ | _ <;> rfl

theorem next_remark {c : Char} (h : c ≠ '\n') : remark.next c = remark := by
  unfold next; split <;> simp_all

theorem next_plain {z : Zone} {c : Char} (hn : c ≠ '\n') (h : ¬ (z = .code ∧ c = '/')) :
    (plain z).next c = plain (z.next c) := by
  unfold next; split <;> simp_all

theorem next_slash {c : Char} (hn : c ≠ '\n') (hs : c ≠ '*') (h : slash.next c ≠ remark) :
    c ≠ '/' ∧ slash.next c = plain (Zone.code.next c) := by
  unfold next at h ⊢; split at h <;> simp_all

theorem next_block {c : Char} (h : c ≠ '*') : block.next c = block := by
  unfold next; split <;> simp_all

theorem next_star {c : Char} (hs : c ≠ '*') (h : c ≠ '/') : star.next c = block := by
  unfold next; split <;> simp_all

theorem next_eq_remark {s : Spot} {c : Char} (hs : s ≠ remark) (h : s.next c = remark) : s = slash ∧ c = '/' := by
  unfold next at h; split at h <;> simp_all

theorem after_remark {t : Text} (h : '\n' ∉ t) : remark.after t = remark := by
  induction t with
  | nil => rfl
  | cons c t ih =>
    rw [List.mem_cons, not_or] at h
    rw [after_cons, next_remark (Ne.symm h.1), ih h.2]

/-! ## The scan of the reader -/

/-- Where the scan of a line stands. -/
def place : Spot → Place
  | plain z => .outside z
  | block | star => .comment
  | _ => .outside .code

/-- The character of which the scan has not yet said what it is. -/
def pending : Spot → Text
  | slash => ['/']
  | star => ['*']
  | _ => []

def zone : Spot → Zone
  | plain z => z
  | _ => .code

theorem place_ofFlag (flag : Bool) : (ofFlag flag).place = .ofFlag flag := by cases flag <;> rfl
theorem pending_ofFlag (flag : Bool) : (ofFlag flag).pending = [] := by cases flag <;> rfl
theorem zone_ofFlag (flag : Bool) : (ofFlag flag).zone = .code := by cases flag <;> rfl

/-- The scan keeps `k` of a stretch of a line between two spots. -/
structure Keeps (s s' : Spot) (t k : Text) : Prop where
  pass : ∀ u, s.place.pass (s.pending ++ (t ++ u)) =
    (k ++ (s'.place.pass (s'.pending ++ u)).1, (s'.place.pass (s'.pending ++ u)).2)
  zone : s.zone.after k = s'.zone

theorem Keeps.refl (s : Spot) : Keeps s s [] [] := ⟨fun _ => rfl, rfl⟩

theorem Keeps.trans {s s' s'' : Spot} {t t' k k' : Text} (h : Keeps s s' t k) (h' : Keeps s' s'' t' k') :
    Keeps s s'' (t ++ t') (k ++ k') where
  pass u := by rw [List.append_assoc, h.pass, h'.pass, List.append_assoc]
  zone := by
    have := h'.zone
    rw [← h.zone] at this
    rw [← this]
    exact List.foldl_append

theorem pass_next {s : Spot} {c : Char} (hs : s ≠ remark) (hn : c ≠ '\n') (h : s.next c ≠ remark) :
    ∃ k, Keeps s (s.next c) [c] k := by
  cases s with
  | plain z =>
    by_cases hc : z = .code ∧ c = '/'
    · obtain ⟨rfl, rfl⟩ := hc
      exact ⟨[], fun _ => rfl, rfl⟩
    · rw [next_plain hn hc]
      exact ⟨[c], fun u => Place.pass_outside fun h => hc ⟨h.1, h.2.1⟩, rfl⟩
  | slash =>
    by_cases hc : c = '*'
    · subst hc
      exact ⟨[], fun _ => rfl, rfl⟩
    · obtain ⟨hc', he⟩ := next_slash hn hc h
      rw [he]
      refine ⟨['/', c], fun u => ?_, rfl⟩
      have h1 : Place.pass (.outside .code) ('/' :: c :: u) = _ := Place.pass_outside (by simp [hc])
      have h2 : Place.pass (.outside .code) (c :: u) = _ := Place.pass_outside (by simp [hc'])
      simp only [place, pending, List.cons_append, List.nil_append]
      rw [h1, show Zone.code.next '/' = .code from rfl, h2]
  | block =>
    by_cases hc : c = '*'
    · subst hc
      exact ⟨[], fun _ => rfl, rfl⟩
    · rw [next_block hc]
      exact ⟨[], fun u => Place.pass_comment fun h => hc h.1, rfl⟩
  | star =>
    by_cases hc : c = '/'
    · subst hc
      exact ⟨[], fun _ => rfl, rfl⟩
    · by_cases hs : c = '*'
      · subst hs
        exact ⟨[], fun u => Place.pass_comment (by simp), rfl⟩
      · rw [next_star hs hc]
        refine ⟨[], fun u => ?_, rfl⟩
        have h1 : Place.pass .comment ('*' :: c :: u) = Place.pass .comment (c :: u) :=
          Place.pass_comment (by simp [hc])
        exact h1.trans (Place.pass_comment fun h => hs h.1)
  | remark => exact absurd rfl hs

/-- A stretch of a line in which no line comment begins. -/
theorem pass_after {s : Spot} {t : Text} (hs : s ≠ remark) (hn : '\n' ∉ t) (h : s.after t ≠ remark) :
    ∃ k, Keeps s (s.after t) t k := by
  induction t generalizing s with
  | nil => exact ⟨[], Keeps.refl s⟩
  | cons c t ih =>
    rw [List.mem_cons, not_or] at hn
    have hc : s.next c ≠ remark := by
      intro hc
      rw [after_cons, hc, after_remark hn.2] at h
      exact h rfl
    obtain ⟨k, hk⟩ := pass_next hs (Ne.symm hn.1) hc
    obtain ⟨k', hk'⟩ := ih hc hn.2 h
    exact ⟨k ++ k', hk.trans hk'⟩

theorem Keeps.uncomment {flag : Bool} {s : Spot} {t k : Text} (h : Keeps (ofFlag flag) s t k) (u : Text) :
    Sketch.uncomment flag (t ++ u) =
      (k ++ (s.place.pass (s.pending ++ u)).1, (s.place.pass (s.pending ++ u)).2.isComment) := by
  have := h.pass u
  rw [place_ofFlag, pending_ofFlag, List.nil_append] at this
  rw [uncomment_eq_pass, this]

theorem isComment_place (s : Spot) : (s.place.pass s.pending).2.isComment = s.inBlock := by
  rcases s with z | _ | _ | _ | _ <;> rfl

/-! ## Line comments -/

theorem takeWhile_line {t : Text} (h : '\n' ∉ t) : t.takeWhile (· ≠ '\n') = t := by
  rw [List.takeWhile_eq_self_iff]
  intro c hc
  rw [decide_eq_true_eq]
  intro hn
  rw [hn] at hc
  exact h hc

theorem remarks_cons {s : Spot} {c : Char} (h : ¬ (s = slash ∧ c = '/')) (t : Text) :
    remarks s (c :: t) = remarks (s.next c) t := by
  rw [remarks, if_neg h]

theorem remarks_slash (t : Text) :
    remarks slash ('/' :: t) = t.takeWhile (· ≠ '\n') :: remarks remark t := by
  rw [remarks, if_pos ⟨rfl, rfl⟩]

theorem remarks_line {s : Spot} {l : Text} (h : '\n' ∉ l) (t : Text) :
    remarks s (l ++ '\n' :: t) = remarks s l ++ remarks (ofFlag (s.after l).inBlock) t := by
  induction l generalizing s with
  | nil =>
    rw [List.nil_append, remarks_cons (by simp), next_newline]
    rfl
  | cons c l ih =>
    rw [List.mem_cons, not_or] at h
    by_cases hc : s = slash ∧ c = '/'
    · obtain ⟨rfl, rfl⟩ := hc
      have hl : (l ++ '\n' :: t).takeWhile (· ≠ '\n') = l := by
        rw [List.takeWhile_append, takeWhile_line h.2, if_pos rfl]
        simp
      rw [List.cons_append, remarks_slash, remarks_slash, hl, takeWhile_line h.2, ih h.2]
      rfl
    · rw [List.cons_append, remarks_cons hc, remarks_cons hc, ih h.2]
      rfl

theorem remarks_completed {s : Spot} {ls : List Text} (h : ∀ l ∈ ls, '\n' ∉ l) (t : Text) :
    remarks s (ls.flatMap (· ++ ['\n']) ++ t) =
      remarks s (ls.flatMap (· ++ ['\n'])) ++ remarks (s.after (ls.flatMap (· ++ ['\n']))) t := by
  induction ls generalizing s with
  | nil => rfl
  | cons l ls ih =>
    rw [List.forall_mem_cons] at h
    simp only [List.flatMap_cons, List.append_assoc, List.cons_append, List.nil_append]
    rw [remarks_line h.1, remarks_line h.1, ih h.2, List.append_assoc, after_append, after_cons, next_newline]

theorem remarks_return {s : Spot} {l : Text} (h : '\n' ∉ l) :
    remarks s (l ++ ['\r']) = (remarks s l).map (· ++ ['\r']) := by
  induction l generalizing s with
  | nil =>
    rw [List.nil_append, remarks_cons (by simp)]
    rfl
  | cons c l ih =>
    rw [List.mem_cons, not_or] at h
    by_cases hc : s = slash ∧ c = '/'
    · obtain ⟨rfl, rfl⟩ := hc
      rw [List.cons_append, remarks_slash, remarks_slash, takeWhile_line h.2, takeWhile_line (by simp [h.2]), ih h.2]
      rfl
    · rw [List.cons_append, remarks_cons hc, remarks_cons hc, ih h.2]

end Spot

theorem harmless_iff {t : Text} :
    Harmless t ↔
      lineMark <+: (uncomment false (lineMark ++ t)).1 ∧ (uncomment false (lineMark ++ t)).2 = false := by
  constructor
  · intro h0
    obtain ⟨u, hu⟩ := h0
    rw [hu]
    exact ⟨⟨u, rfl⟩, rfl⟩
  · intro h0
    obtain ⟨⟨u, hu⟩, hf⟩ := h0
    exact ⟨u, Prod.ext hu.symm hf⟩

instance (t : Text) : Decidable (Harmless t) := decidable_of_iff _ harmless_iff.symm

theorem harmless_iff_pass {t : Text} :
    Harmless t ↔ ∃ u, (Place.pass (.outside .code) (lineMark ++ t)).1 = lineMark ++ u ∧
      (Place.pass (.outside .code) (lineMark ++ t)).2.isComment = false := by
  unfold Harmless
  rw [uncomment_eq_pass]
  simp only [Place.ofFlag, Bool.false_eq_true, if_false, Prod.mk.injEq]

theorem harmless_return {t : Text} : Harmless (t ++ ['\r']) ↔ Harmless t := by
  have hp := Place.pass_append (p := .outside .code) (s := lineMark ++ t) (t := ['\r']) (by simp) (by simp)
  rw [harmless_iff_pass, harmless_iff_pass, ← List.append_assoc, hp]
  rcases Place.pass (.outside .code) (lineMark ++ t) with ⟨k, z | _⟩
  · have hz : Place.pass (.outside z) ['\r'] = (['\r'], .outside (z.next '\r')) := Place.pass_outside (by simp)
    rw [hz]
    constructor
    · intro h0
      obtain ⟨u, hu, -⟩ := h0
      rw [lineMark_append] at hu
      obtain ⟨v, rfl⟩ : ∃ v, k = lineMark ++ v := by
        rcases k with _ | ⟨a, _ | ⟨b, v⟩⟩
        · simp at hu
        · simp at hu
        · simp only [List.cons_append, List.cons.injEq] at hu
          exact ⟨v, by rw [hu.1, hu.2.1]; rfl⟩
      exact ⟨v, rfl, rfl⟩
    · intro h0
      obtain ⟨u, rfl, -⟩ := h0
      exact ⟨u ++ ['\r'], List.append_assoc .., rfl⟩
  · constructor
    · intro h0
      obtain ⟨u, -, hu⟩ := h0
      cases hu
    · intro h0
      obtain ⟨u, -, hu⟩ := h0
      cases hu

theorem harmless_dropReturn {t : Text} : Harmless (Text.dropReturn t) ↔ Harmless t := by
  rcases Text.dropReturn_cases t with h | ⟨s, rfl, h⟩
  · rw [h]
  · rw [h, harmless_return]

namespace Spot

/-- On a line whose comments are harmless the scan and the rules agree. -/
theorem isComment_pass {s : Spot} {l : Text} (hs : s ≠ remark) (hn : '\n' ∉ l)
    (hr : ∀ t ∈ remarks s l, Harmless t) :
    (s.place.pass (s.pending ++ l)).2.isComment = (s.after l).inBlock := by
  induction l generalizing s with
  | nil => rw [List.append_nil]; exact isComment_place s
  | cons c l ih =>
    rw [List.mem_cons, not_or] at hn
    by_cases hc : s.next c = remark
    · obtain ⟨rfl, rfl⟩ := next_eq_remark hs hc
      rw [remarks_slash, takeWhile_line hn.2] at hr
      obtain ⟨u, -, hu⟩ := harmless_iff_pass.1 (hr l (List.mem_cons_self ..))
      rw [after_cons, hc, after_remark hn.2]
      exact hu
    · obtain ⟨k, hk⟩ := pass_next hs (Ne.symm hn.1) hc
      have hcs : ¬ (s = slash ∧ c = '/') := by
        intro h0
        obtain ⟨rfl, rfl⟩ := h0
        exact hc rfl
      rw [remarks_cons hcs] at hr
      rw [after_cons, ← ih hc hn.2 hr]
      exact congrArg (·.2.isComment) (hk.pass l)

theorem inBlock_dropReturn (s : Spot) (l : Text) : (s.after (Text.dropReturn l)).inBlock = (s.after l).inBlock := by
  rcases Text.dropReturn_cases l with h | ⟨t, rfl, h⟩
  · rw [h]
  · rw [h, after_append]
    exact (inBlock_next_return _).symm

theorem harmless_of_dropReturn {s : Spot} {l : Text} (hn : '\n' ∉ l) (h : ∀ t ∈ remarks s l, Harmless t) :
    ∀ t ∈ remarks s (Text.dropReturn l), Harmless t := by
  rcases Text.dropReturn_cases l with hd | ⟨l, rfl, hd⟩
  · rwa [hd]
  · rw [hd]
    intro t ht
    rw [List.mem_append, not_or] at hn
    rw [remarks_return hn.1] at h
    exact harmless_return.1 (h _ (List.mem_map_of_mem ht))

end Spot

open Spot in
/-- After a line whose comments are harmless the reader knows whether a block comment is open. -/
theorem Reader.inComment_step {r : Reader} {l : Text} (hn : '\n' ∉ l)
    (hr : ∀ t ∈ remarks (ofFlag r.inComment) l, Harmless t) :
    ((ofFlag r.inComment).after l).inBlock = (r.step (Text.dropReturn l)).1.inComment := by
  have hd := harmless_of_dropReturn hn hr
  have hnd : '\n' ∉ Text.dropReturn l := fun h => hn (Text.mem_of_mem_dropReturn h)
  have := isComment_pass (s := ofFlag r.inComment) (by cases r.inComment <;> simp [ofFlag]) hnd hd
  rw [place_ofFlag, pending_ofFlag, List.nil_append, inBlock_dropReturn] at this
  rw [Reader.step_inComment, uncomment_eq_pass, ← this]

open Spot in
/-- After complete lines whose comments are harmless the reader knows whether a block comment is open. -/
theorem Reader.inComment_readFrom {r : Reader} {n : Nat} {ls : List Text} (hn : ∀ l ∈ ls, '\n' ∉ l)
    (hr : ∀ t ∈ remarks (ofFlag r.inComment) (ls.flatMap (· ++ ['\n'])), Harmless t) :
    (ofFlag r.inComment).after (ls.flatMap (· ++ ['\n'])) =
      ofFlag (r.readFrom n (ls.map Text.dropReturn)).1.inComment := by
  induction ls generalizing r n with
  | nil => rfl
  | cons l ls ih =>
    rw [List.forall_mem_cons] at hn
    rw [List.flatMap_cons, List.append_assoc, List.singleton_append] at hr ⊢
    rw [remarks_line hn.1] at hr
    have hl := Reader.inComment_step hn.1 fun t ht => hr t (List.mem_append_left _ ht)
    rw [after_append, after_cons, next_newline, hl, List.map_cons, Reader.readFrom_cons]
    refine ih hn.2 fun t ht => hr t (List.mem_append_right _ ?_)
    rwa [hl]

end Breadboard.Sketch
