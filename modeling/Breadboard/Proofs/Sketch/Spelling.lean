/-
  Breadboard.Proofs.Sketch.Spelling — a line that spells a statement is read as that statement.

  The grammar puts a line together from its parts; the reader takes it apart again by searching
  for the line comment, the semicolon, the first opening parenthesis and the commas. Each search
  stops at the right place because no part holds the mark in code (`Token`).

  Proved: each literal is read as what it denotes (`natural?_iff_digits`, `pin?_of_pinName`,
  `printable?_of_printable` and the others), arguments are split where the grammar joined them
  (`arguments?_of_listed`), and so each line is read as what it spells (`ofLine?_of_spells`).
-/

import Mathlib
import Breadboard.Proofs.Sketch.Quoting
import Breadboard.Proofs.Text.Trim

namespace Breadboard

namespace Sketch

open Text Zone

/-! ## Numbers -/

theorem natural?_iff_digits {t : Text} {n : Nat} : natural? t = some n ↔ Digits t n := by
  unfold natural?
  constructor
  · intro h
    split at h
    · next hd =>
      obtain rfl := Option.some.inj h
      rw [Bool.and_eq_true, decide_eq_true_eq] at hd
      obtain ⟨hne, hd⟩ := hd
      rw [List.all_eq_true] at hd
      clear h
      -- The digits are read from the left, each one behind the number of those before it.
      induction t using List.reverseRecOn with
      | nil => exact absurd rfl hne
      | append_singleton t c ih =>
        have hc := hd c (by simp)
        rw [Nat.ofDigitChars_append]
        by_cases ht : t = []
        · subst ht
          simpa [Nat.ofDigitChars] using Digits.one hc
        · exact .more (ih ht fun d hm => hd d (List.mem_append_left _ hm)) hc
    · cases h
  · intro h
    have hd : t ≠ [] ∧ (∀ c ∈ t, c.isDigit = true) ∧ Nat.ofDigitChars 10 t 0 = n := by
      induction h with
      | one hc => exact ⟨by simp, by simpa using hc, by simp [Nat.ofDigitChars]⟩
      | more _ hc ih =>
        obtain ⟨-, hd, hn⟩ := ih
        refine ⟨by simp, ?_, ?_⟩
        · intro d hm
          rcases List.mem_append.1 hm with hm | hm
          · exact hd d hm
          · rw [List.mem_singleton.1 hm]
            exact hc
        · rw [Nat.ofDigitChars_append, hn]
          rfl
    obtain ⟨hne, hd, rfl⟩ := hd
    rw [if_pos (by simpa [hne] using hd)]

theorem Digits.ne_nil {t : Text} {n : Nat} (h : Digits t n) : t ≠ [] := by cases h <;> simp

theorem Digits.isDigit {t : Text} {n : Nat} (h : Digits t n) : ∀ c ∈ t, c.isDigit = true := by
  induction h with
  | one hc => simpa using hc
  | more _ hc ih =>
    intro d hm
    rcases List.mem_append.1 hm with hm | hm
    · exact ih d hm
    · rw [List.mem_singleton.1 hm]
      exact hc

theorem digits_decimal (n : Nat) : Digits (decimal n) n := natural?_iff_digits.1 (natural?_decimal n)

/-- A text that does not begin with a sign is read as digits. -/
theorem integer?_of_unsigned {c : Char} {t : Text} (hm : c ≠ '-') (hp : c ≠ '+') :
    integer? (c :: t) = ((natural? (c :: t)).map fun n => (n : Int)).filter isWord64 := by
  unfold integer?
  split
  · next h => exact absurd (List.cons.inj h).1 hm
  · next h => exact absurd (List.cons.inj h).1 hp
  · rfl

theorem integer?_of_signedNumber {t : Text} {n : Int} (h : SignedNumber t n) : integer? t = some n := by
  have hs : (0 : Int) < signBit := by decide
  cases h with
  | plain hd hn =>
    obtain ⟨c, t, rfl⟩ := List.exists_cons_of_ne_nil hd.ne_nil
    have hc := hd.isDigit c (List.mem_cons_self ..)
    rw [integer?_of_unsigned (by rintro rfl; cases hc) (by rintro rfl; cases hc), natural?_iff_digits.2 hd]
    simp [isWord64, Option.filter]
    omega
  | plus hd hn =>
    rw [integer?, natural?_iff_digits.2 hd]
    simp [isWord64, Option.filter]
    omega
  | minus hd hn =>
    rw [integer?, natural?_iff_digits.2 hd]
    simp [isWord64, Option.filter]
    omega

theorem dropSizeLetters_append {t u : Text} {n : Nat} (h : Digits t n) (hu : ∀ c ∈ u, c ∈ "uUlL".toList) :
    dropSizeLetters (t ++ u) = t := by
  have hu' : ∀ c ∈ u.reverse, isSizeLetter c = true := fun c hc => by
    have := hu c (List.mem_reverse.1 hc)
    simpa [isSizeLetter, or_assoc] using this
  obtain ⟨s, c, rfl⟩ := (List.eq_nil_or_concat' t).resolve_left h.ne_nil
  have hc := h.isDigit c (by simp)
  have hcl : isSizeLetter c = false := by
    by_contra hl
    simp only [isSizeLetter, Bool.not_eq_false, Bool.or_eq_true, beq_iff_eq] at hl
    rcases hl with ((rfl | rfl) | rfl) | rfl <;> cases hc
  rw [dropSizeLetters, List.reverse_append, List.dropWhile_append_of_pos hu']
  simp [hcl]

theorem size?_of_sizeNumber {t : Text} {n : Nat} (h : SizeNumber t n) : size? t = some n := by
  cases h with
  | mk hd hn hu =>
    rw [size?, dropSizeLetters_append hd hu, natural?_iff_digits.2 hd]
    simp [Option.filter, hn]

/-! ## Pins, words and printed texts -/

theorem isAlpha_not_digit {c : Char} (h : c.isAlpha = true ∨ c = '_') : c.isDigit = false ∧ c ≠ '-' ∧ c ≠ '+' := by
  refine ⟨?_, ?_, ?_⟩
  · rcases h with h | rfl
    · simp only [Char.isAlpha, Char.isUpper, Char.isLower, Char.isDigit, Bool.or_eq_true, Bool.and_eq_true,
        decide_eq_true_eq, Bool.and_eq_false_iff, decide_eq_false_iff_not, ge_iff_le, UInt32.le_iff_toNat_le] at h ⊢
      simp at h ⊢
      omega
    · rfl
  · rintro rfl; revert h; decide
  · rintro rfl; revert h; decide

theorem isIdentifier_cons {c : Char} {t : Text} :
    isIdentifier (c :: t) = true ↔ (c.isAlpha = true ∨ c = '_') ∧ ∀ d ∈ t, d.isAlphanum = true ∨ d = '_' := by
  simp only [isIdentifier, isNameStart, isNameChar, Bool.and_eq_true, Bool.or_eq_true, beq_iff_eq, List.all_eq_true]

theorem pin?_of_pinName {t : Text} {p : PinId} (h : PinName t p) : pin? t = some p := by
  cases h with
  | number hn => rw [pin?, integer?_of_signedNumber hn]
  | builtin => decide
  | @named c t hc ht hb =>
    obtain ⟨hd, hm, hp⟩ := isAlpha_not_digit hc
    have hi : integer? (c :: t) = none := by
      have hn : natural? (c :: t) = none := by simp [natural?, hd]
      rw [integer?_of_unsigned hm hp, hn]
      rfl
    rw [pin?, hi]
    dsimp only
    rw [if_neg (show c :: t ≠ builtinName from hb), if_pos (isIdentifier_cons.2 ⟨hc, ht⟩)]

theorem mode?_of_modeName {t : Text} {m : PinMode} (h : ModeName t m) : mode? t = some m := by
  cases h <;> decide

theorem level?_of_levelName {t : Text} {l : Level} (h : LevelName t l) : level? t = some l := by
  cases h with
  | high hw => fin_cases hw <;> decide
  | low hw => fin_cases hw <;> decide

/-! ## Tokens -/

/-- The characters at which a line is taken apart. -/
def isMark (c : Char) : Bool := c == ',' || c == '/' || c == '(' || c == '{' || c == '}'

/-- The characters of names and numbers. -/
def isWordChar (c : Char) : Bool := c.isAlphanum || c == '_' || c == '.' || c == '+' || c == '-'

/-- A part of a line that no search stops in: no blank at its ends and no mark in code. -/
structure Token (t : Text) : Prop where
  solid : Solid t
  stretch : Stretch (isMark · = false) t

theorem isWordChar_iff {c : Char} :
    isWordChar c = true ↔ (48 ≤ c.toNat ∧ c.toNat ≤ 57) ∨ (65 ≤ c.toNat ∧ c.toNat ≤ 90) ∨
      (97 ≤ c.toNat ∧ c.toNat ≤ 122) ∨ c ∈ ['_', '.', '+', '-'] := by
  simp only [isWordChar, Char.isAlphanum, Char.isAlpha, Char.isUpper, Char.isLower, Char.isDigit, Bool.or_eq_true,
    Bool.and_eq_true, decide_eq_true_eq, beq_iff_eq, ge_iff_le, UInt32.le_iff_toNat_le, List.mem_cons,
    List.not_mem_nil, or_false]
  simp only [Char.toNat]
  tauto

theorem isWordChar_spec {c : Char} (h : isWordChar c = true) : isBlank c = false ∧ isMark c = false ∧ c ≠ '"' := by
  refine ⟨?_, ?_, ?_⟩
  · rw [isWordChar_iff] at h
    rcases h with h | h | h | h
    · simp [isBlank]; omega
    · simp [isBlank]; omega
    · simp [isBlank]; omega
    · fin_cases h <;> decide
  · by_contra hm
    simp only [isMark, Bool.not_eq_false, Bool.or_eq_true, beq_iff_eq] at hm
    rcases hm with (((rfl | rfl) | rfl) | rfl) | rfl <;> revert h <;> decide
  · rintro rfl
    revert h
    decide

def IsWord (t : Text) : Prop := t ≠ [] ∧ t.all isWordChar = true

theorem IsWord.token {t : Text} (h : IsWord t) : Token t := by
  have hc : ∀ c ∈ t, isBlank c = false ∧ isMark c = false ∧ c ≠ '"' := fun c hc =>
    isWordChar_spec (List.all_eq_true.1 h.2 c hc)
  exact ⟨solid_of_forall h.1 fun c hm => (hc c hm).1,
    stretch_of_forall (fun hq => (hc _ hq).2.2 rfl) fun c hm => (hc c hm).2.1⟩

theorem Callee.isWord_name (f : Callee) : IsWord f.name := by cases f <;> exact ⟨by decide, by decide⟩

theorem Digits.isWord {t : Text} {n : Nat} (h : Digits t n) : IsWord t := by
  refine ⟨h.ne_nil, List.all_eq_true.2 fun c hc => ?_⟩
  simp [isWordChar, Char.isAlphanum, h.isDigit c hc]

theorem SignedNumber.isWord {t : Text} {n : Int} (h : SignedNumber t n) : IsWord t := by
  cases h with
  | plain hd hn => exact hd.isWord
  | plus hd hn => exact ⟨List.cons_ne_nil _ _, by rw [List.all_cons, hd.isWord.2]; rfl⟩
  | minus hd hn => exact ⟨List.cons_ne_nil _ _, by rw [List.all_cons, hd.isWord.2]; rfl⟩

theorem SizeNumber.isWord {t : Text} {n : Nat} (h : SizeNumber t n) : IsWord t := by
  cases h with
  | @mk t u n hd hn hu =>
    have hw : u.all isWordChar = true := by
      rw [List.all_eq_true]
      intro c hc
      have hl := hu c hc
      fin_cases hl <;> decide
    refine ⟨by simp [hd.ne_nil], ?_⟩
    rw [List.all_append, hd.isWord.2, hw]
    rfl

theorem PinName.isWord {t : Text} {p : PinId} (h : PinName t p) : IsWord t := by
  cases h with
  | number hn => exact hn.isWord
  | builtin => exact ⟨by decide, by decide⟩
  | @named c t hc ht hb =>
    refine ⟨List.cons_ne_nil c t, List.all_eq_true.2 (List.forall_mem_cons.2 ⟨?_, fun d hd => ?_⟩)⟩
    · rcases hc with hc | rfl
      · simp [isWordChar, Char.isAlphanum, hc]
      · decide
    · rcases ht d hd with hd | rfl
      · simp [isWordChar, hd]
      · decide

theorem ModeName.isWord {t : Text} {m : PinMode} (h : ModeName t m) : IsWord t := by
  cases h <;> exact ⟨by decide, by decide⟩

theorem LevelName.isWord {t : Text} {l : Level} (h : LevelName t l) : IsWord t := by
  cases h with
  | high hw => fin_cases hw <;> exact ⟨by decide, by decide⟩
  | low hw => fin_cases hw <;> exact ⟨by decide, by decide⟩

theorem Printable.token {t u : Text} (h : Printable t u) : Token t := by
  cases h with
  | @string t u hq =>
    exact ⟨⟨⟨'"', t ++ ['"'], rfl, by decide⟩, ⟨'"' :: t, '"', rfl, by decide⟩⟩, hq.stretch (by decide)⟩
  | number hn => exact hn.isWord.token

theorem printable?_of_printable {t u : Text} (h : Printable t u) : printable? t = some u := by
  cases h with
  | @string t u hq =>
    have hd : quoted? ('"' :: t ++ ['"']) = some t := dropSuffix?_eq_some_iff.2 rfl
    rw [printable?, hd]
    exact hq.unescape?
  | number hn =>
    have hq : quoted? t = none := by
      unfold quoted?
      split
      · exact absurd (List.all_eq_true.1 hn.isWord.2 '"' (List.mem_cons_self ..)) (by decide)
      · rfl
    rw [printable?, hq]
    dsimp only
    rw [integer?_of_signedNumber hn]
    rfl

/-! ## Arguments -/

theorem Denotes.tokens {f : Callee} {args : List Text} {s : Statement} (h : Denotes f args s) :
    ∀ a ∈ args, Token a := by
  cases h with
  | pinMode ha hb => simpa using ⟨ha.isWord.token, hb.isWord.token⟩
  | digitalWrite ha hb => simpa using ⟨ha.isWord.token, hb.isWord.token⟩
  | delay ha => simpa using ha.isWord.token
  | delayMicroseconds ha _ _ => simpa using ha.isWord.token
  | serialBegin ha _ => simpa using ha.isWord.token
  | serialPrint ha => simpa using ha.token
  | newline => simp
  | serialPrintln ha => simpa using ha.token

theorem denote?_of_denotes {f : Callee} {args : List Text} {s : Statement} (h : Denotes f args s) :
    f.denote? args = some s := by
  cases h with
  | pinMode ha hb => rw [Callee.denote?, pin?_of_pinName ha, mode?_of_modeName hb]; rfl
  | digitalWrite ha hb => rw [Callee.denote?, pin?_of_pinName ha, level?_of_levelName hb]; rfl
  | delay ha => rw [Callee.denote?, size?_of_sizeNumber ha]; rfl
  | @delayMicroseconds a n d ha hl hu =>
    have hd : ceilMillis n = d := by unfold ceilMillis; omega
    rw [Callee.denote?, size?_of_sizeNumber ha, ← hd]
    rfl
  | serialBegin ha hn =>
    rw [Callee.denote?, size?_of_sizeNumber ha, Option.filter_some, if_pos (by simpa using hn)]
    rfl
  | serialPrint ha => rw [Callee.denote?, printable?_of_printable ha]; rfl
  | newline => rfl
  | serialPrintln ha => rw [Callee.denote?, printable?_of_printable ha]; rfl

theorem stretch_gap {g : Text} (hg : IsGap g) : Stretch (isMark · = false) g :=
  stretch_of_forall (Text.not_mem_gap hg (by decide)) fun c hc => by
    have hb := hg c hc
    by_contra hm
    simp only [isMark, Bool.not_eq_false, Bool.or_eq_true, beq_iff_eq] at hm
    rcases hm with (((rfl | rfl) | rfl) | rfl) | rfl <;> revert hb <;> decide

/-- An argument with the white space around it. -/
theorem Token.spaced {a g h : Text} (ha : Token a) (hg : IsGap g) (hh : IsGap h) :
    Stretch (isMark · = false) (g ++ a ++ h) :=
  ((stretch_gap hg).append ha.stretch).append (stretch_gap hh)

theorem stretch_of_listed {args : List Text} {inner : Text} (h : Listed args inner) (ha : ∀ a ∈ args, Token a) :
    Stretch (fun c => isMark c = false ∨ c = ',') inner := by
  induction h with
  | none hg => exact (stretch_gap hg).mono fun _ => Or.inl
  | one hg hh => exact ((ha _ (by simp)).spaced hg hh).mono fun _ => Or.inl
  | more hg hh _ ih =>
    rw [List.forall_mem_cons] at ha
    exact ((ha.1.spaced hg hh).mono fun _ => Or.inl).append ((ih ha.2).cons (by decide) (Or.inr rfl))

/-- The pieces between the commas are the arguments, each with the white space around it. -/
theorem map_trim_codePieces {args : List Text} {inner : Text} (h : Listed args inner) (ha : ∀ a ∈ args, Token a)
    (hne : args ≠ []) : (codePieces ',' .code inner).map Text.trim = args := by
  induction h with
  | none hg => exact absurd rfl hne
  | @one a g h hg hh =>
    have ht := ha a (by simp)
    have hs : Stretch (· ≠ ',') (g ++ a ++ h) := (ht.spaced hg hh).ne (by decide)
    have hp := codePieces_append hs.allCode (t := []) rfl
    rw [List.append_nil] at hp
    rw [hp, List.map_singleton, List.append_assoc, ht.solid.trim_gaps hg hh]
  | @more a b g h t args hg hh _ ih =>
    rw [List.forall_mem_cons] at ha
    have hs : Stretch (· ≠ ',') (g ++ a ++ h) := (ha.1.spaced hg hh).ne (by decide)
    have hp : codePieces ',' .code (g ++ a ++ h ++ ',' :: t) = (g ++ a ++ h ++ []) :: codePieces ',' .code t :=
      codePieces_append hs.allCode (by rw [hs.closed]; rfl)
    rw [hp, List.append_nil, List.map_cons, ih ha.2 (List.cons_ne_nil b args), List.append_assoc,
      ha.1.solid.trim_gaps hg hh]

theorem allBlank_of_listed {args : List Text} {inner : Text} (h : Listed args inner) (ha : ∀ a ∈ args, Token a) :
    Text.allBlank inner = args.isEmpty := by
  cases h with
  | none hg => exact List.all_eq_true.2 hg
  | one hg hh =>
    rw [List.append_assoc]
    exact (ha _ (by simp)).solid.allBlank _ _
  | more hg hh _ =>
    rw [List.append_assoc, List.append_assoc]
    exact (ha _ (by simp)).solid.allBlank _ _

theorem arguments?_of_listed {args : List Text} {inner : Text} (h : Listed args inner) (ha : ∀ a ∈ args, Token a) :
    arguments? inner = some args := by
  rw [arguments?, allBlank_of_listed h ha]
  cases args with
  | nil => rfl
  | cons a args =>
    rw [if_neg (by simp), if_pos (stretch_of_listed h ha).closed, map_trim_codePieces h ha (List.cons_ne_nil a args)]

/-! ## Lines -/

theorem uncommentTail_append {t r : Text} (ht : Stretch (· ≠ '/') t) (hr : Remark r) : uncommentTail (t ++ r) = t := by
  have hc : ∀ u, Zone.cutCode lineMark .code (t ++ u) = (Zone.cutCode lineMark .code u).map fun x => (t ++ x.1, x.2) :=
    fun u => by
      have := cutCode_of_allCode ht.allCode ['/'] u
      rwa [ht.closed] at this
  rw [uncommentTail, hc]
  cases hr with
  | none => simp [Zone.cutCode]
  | comment => simp [Zone.cutCode, lineMark, Text.dropPrefix?]

theorem Callee.ofName?_name (f : Callee) : Callee.ofName? f.name = some f := by cases f <;> decide

section

variable {f : Callee} {args : List Text} {s : Statement} {g h inner e r : Text}

/-- A call from its name to its closing parenthesis. -/
theorem solid_call (f : Callee) (h inner : Text) : Solid (f.name ++ h ++ '(' :: inner ++ [')']) := by
  have := f.isWord_name.token.solid.append (solid_singleton (c := ')') (by decide)) (h ++ '(' :: inner)
  simpa using this

theorem stretch_call (hh : IsGap h) (ha : ∀ a ∈ args, Token a) (hi : Listed args inner) :
    Stretch (fun c => isMark c = false ∨ c = ',' ∨ c = '(') (f.name ++ h ++ '(' :: inner ++ [')']) := by
  have hn := f.isWord_name.token.stretch.append (stretch_gap hh)
  have hp : Stretch (isMark · = false) [')'] := stretch_of_forall (by decide) (by simp [isMark])
  have hinner : Stretch (fun c => isMark c = false ∨ c = ',' ∨ c = '(') ('(' :: inner) :=
    ((stretch_of_listed hi ha).mono fun _ hc => hc.imp_right Or.inl).cons (by decide) (Or.inr (Or.inr rfl))
  exact ((hn.mono fun _ => Or.inl).append hinner).append (hp.mono fun _ => Or.inl)

theorem call?_call (hh : IsGap h) (ha : ∀ a ∈ args, Token a) (hi : Listed args inner) :
    call? (f.name ++ h ++ '(' :: inner ++ [')']) = some (f.name, args) := by
  have hp : '(' ∉ f.name ++ h := by
    rw [List.mem_append, not_or]
    exact ⟨by cases f <;> decide, Text.not_mem_gap hh (by decide)⟩
  have hname : Text.trim (f.name ++ h) = f.name :=
    f.isWord_name.token.solid.trim_gaps (g := []) (by decide) hh
  have hd : Text.dropSuffix? [')'] (inner ++ [')']) = some inner := dropSuffix?_eq_some_iff.2 rfl
  rw [call?, List.append_assoc, List.cons_append, cut_of_not_mem hp]
  simp [hd, hname, f.isWord_name.token.solid.ne_nil, arguments?_of_listed hi ha]

theorem bareCode_call {c : Text} (hg : IsGap g) (hs : Stretch (· ≠ '/') (c ++ [')'])) (hc : Solid (c ++ [')']))
    (he : Ending e) (hr : Remark r) : bareCode (g ++ (c ++ [')'] ++ e) ++ r) = c ++ [')'] := by
  have hgap : ∀ {g : Text}, IsGap g → Stretch (· ≠ '/') g := fun hg => (stretch_gap hg).ne (by decide)
  cases he with
  | bare hh =>
    have hu := uncommentTail_append ((hgap hg).append (hs.append (hgap hh))) hr
    have hd : Text.dropSuffix? [';'] (c ++ [')']) = none := by simp [Text.dropSuffix?, Text.dropPrefix?]
    rw [bareCode, hu, hc.trim_gaps hg hh, hd]
  | @semicolon g' h' hg' hh' =>
    have hsemi : Solid (c ++ [')'] ++ (g' ++ [';'])) :=
      hc.append (solid_singleton (c := ';') (by decide)) g'
    have hu := uncommentTail_append
      ((hgap hg).append (hs.append ((hgap hg').append ((hgap hh').cons (c := ';') (by decide) (by decide))))) hr
    have he : c ++ [')'] ++ (g' ++ ';' :: h') = c ++ [')'] ++ (g' ++ [';']) ++ h' := by simp
    have hd : Text.dropSuffix? [';'] (c ++ [')'] ++ (g' ++ [';'])) = some (c ++ [')'] ++ g') :=
      dropSuffix?_eq_some_iff.2 (by simp)
    rw [bareCode, hu, he, hsemi.trim_gaps hg hh', hd]
    exact (trimEnd_gap hg' _).trans hc.trimEnd

end

/-- A line that spells a statement is read as this statement. -/
theorem ofLine?_of_spells {line : Text} {s : Statement} (h : Spells line s) : Statement.ofLine? line = some s := by
  cases h with
  | @call f args s g h inner e r hg hh hd hi he hr =>
    have hs : Stretch (· ≠ '/') (f.name ++ h ++ '(' :: inner ++ [')']) := (stretch_call hh hd.tokens hi).ne (by decide)
    have hline : g ++ f.name ++ h ++ '(' :: inner ++ ')' :: e ++ r =
        g ++ (f.name ++ h ++ '(' :: inner ++ [')'] ++ e) ++ r := by simp
    rw [Statement.ofLine?, hline, bareCode_call hg hs (solid_call f h inner) he hr, call?_call hh hd.tokens hi]
    simp only [Option.bind_eq_bind, Option.bind_some, f.ofName?_name, denote?_of_denotes hd]

end Sketch

end Breadboard
