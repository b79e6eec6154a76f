/-
  Breadboard.Proofs.Sketch.Rounds — block comments are taken out round by round, or in one scan.

  A line is stripped of its block comments in rounds, each of which searches the bytes that are left
  for the next mark: in a comment for its end wherever that stands, in code for a beginning outside
  string literals. A search for a beginning knows nothing of the rounds before, and a backslash in a
  literal makes it pass over one byte, which may be the first of several that one character has.

  `Scanner.scan` is what this comes to: one pass over the characters with three states.

  Proved: the searches find in the bytes of a text what is found among its characters
  (`Bytes.find?_bytes`, `Bytes.resume?_bytes`); so the rounds come to an end, after at most one for
  every two characters and a last one, with the bytes of what the scanner keeps and with the state it
  ends in, and what is kept of a line is what the scanner keeps (`rounds_end_as_scan`).
-/

import Mathlib
import Breadboard.Proofs.Sketch.Scan
import Breadboard.Proofs.Sketch.Quoting
import Breadboard.Proofs.Sketch.Reading

namespace Breadboard.Sketch

/-! ## Three states -/

inductive Scanner where
  | code
  | string
  | comment
  deriving DecidableEq, Repr

namespace Scanner

def ofFlag (inComment : Bool) : Scanner := if inComment then comment else code

def isComment (s : Scanner) : Bool := s = comment

/-- The characters that are kept of a line, and the state after it. -/
def scan : Scanner → Text → Text × Scanner
  | s, [] => ([], s)
  | comment, '*' :: '/' :: t => scan code t
  | comment, _ :: t => scan comment t
  | code, '/' :: '*' :: t => scan comment t
  | code, '"' :: t => let (kept, s) := scan string t; ('"' :: kept, s)
  | code, c :: t => let (kept, s) := scan code t; (c :: kept, s)
  | string, '\\' :: c :: t => let (kept, s) := scan string t; ('\\' :: c :: kept, s)
  | string, '"' :: t => let (kept, s) := scan code t; ('"' :: kept, s)
  | string, c :: t => let (kept, s) := scan string t; (c :: kept, s)

/-- The place of a pass that the state stands for. -/
def place : Scanner → Place
  | code => .outside .code
  | string => .outside .string
  | comment => .comment

/-- A pass right behind a backslash is in the string still. -/
def ofPlace : Place → Scanner
  | .outside .code => code
  | .outside _ => string
  | .comment => comment

theorem isComment_ofPlace (p : Place) : (ofPlace p).isComment = p.isComment := by
  rcases p with z | _
  · cases z <;> rfl
  · rfl

/-- Scanner and pass go on in step; the pass takes an escaped character in two steps. -/
theorem scan_eq_pass (s : Scanner) (t : Text) : scan s t = ((Place.pass s.place t).1, ofPlace (Place.pass s.place t).2) := by
  induction s, t using scan.induct with
  | case1 s => cases s <;> rfl
  | case2 t ih => exact ih
  | case3 c t hclose ih =>
    have step : Place.pass .comment (c :: t) = Place.pass .comment t := by
      refine Place.pass_comment fun h => ?_
      obtain ⟨t', ht⟩ := List.head?_eq_some_iff.1 h.2
      exact hclose t' h.1 ht
    rw [scan.eq_3 _ _ hclose, ih]
    simp only [place, step]
  | case4 t ih => exact ih
  | case5 t kept s hscan ih =>
    have step := Place.pass_outside (z := .code) (c := '"') (t := t) (by simp)
    simp only [scan, ih, place, step]
    rfl
  | case6 c t hopen hquote kept s hscan ih =>
    have step := Place.pass_outside (z := .code) (c := c) (t := t) fun h => by
      obtain ⟨t', ht⟩ := List.head?_eq_some_iff.1 h.2.2
      exact hopen t' h.2.1 ht
    rw [Zone.next_code hquote] at step
    rw [scan.eq_6 _ _ hopen hquote, ih]
    simp only [place, step]
  | case7 c t kept s hscan ih =>
    have step := Place.pass_outside (z := .string) (c := '\\') (t := c :: t) (by simp)
    have skip := Place.pass_outside (z := .escape) (c := c) (t := t) (by simp)
    simp only [scan, ih, place, step]
    rw [show Zone.string.next '\\' = .escape from rfl, skip]
    rfl
  | case8 t kept s hscan ih =>
    have step := Place.pass_outside (z := .string) (c := '"') (t := t) (by simp)
    simp only [scan, ih, place, step]
    rfl
  | case9 c t hescape hquote kept s hscan ih =>
    have step := Place.pass_outside (z := .string) (c := c) (t := t) (by simp)
    rw [scan.eq_9 _ _ hescape hquote, ih]
    by_cases hc : c = '\\'
    · -- a backslash at the end of the line
      subst hc
      cases t with
      | nil => rfl
      | cons d t => exact (hescape d t rfl rfl).elim
    · rw [Zone.next_string hquote hc] at step
      simp only [place, step]

end Scanner

/-! ## Searches among bytes -/

abbrev Bytes := List UInt8

/-- The bytes of a text in UTF-8. -/
def bytes (t : Text) : Bytes := t.flatMap String.utf8EncodeChar

namespace Bytes

/-- How many bytes stand in front of the first occurrence of a pattern. -/
def find? (pat : Bytes) : Bytes → Option Nat
  | [] => none
  | b :: t => if pat.isPrefixOf (b :: t) then some 0 else (find? pat t).map (· + 1)

def quote : UInt8 := 0x22

def backslash : UInt8 := 0x5C

/-- How many bytes stand in front of the first occurrence outside string literals. A backslash in a
literal passes over the next byte. -/
def findOutside? (pat : Bytes) : Bool → Bytes → Option Nat
  | _, [] => none
  | inString, b :: t =>
    if inString ∧ b = backslash then
      match t with
      | [] => none
      | _ :: t => (findOutside? pat true t).map (· + 2)
    else if b = quote then (findOutside? pat (!inString) t).map (· + 1)
    else if !inString ∧ pat.isPrefixOf (b :: t) then some 0
    else (findOutside? pat inString t).map (· + 1)

end Bytes

/-- A line that is stripped of its block comments, between two rounds. -/
structure Stripping where
  kept : Bytes := []
  rest : Bytes
  inComment : Bool

namespace Stripping

/-- One round: up to the next mark and past it. Where there is none the line is done. -/
def round (s : Stripping) : Stripping ⊕ (Bytes × Bool) :=
  if s.inComment then
    match Bytes.find? (bytes closeMark) s.rest with
    | some i => .inl { s with rest := s.rest.drop (i + 2), inComment := false }
    | none => .inr (s.kept, true)
  else
    match Bytes.findOutside? (bytes openMark) false s.rest with
    | some i => .inl { kept := s.kept ++ s.rest.take i, rest := s.rest.drop (i + 2), inComment := true }
    | none => .inr (s.kept ++ s.rest, false)

/-- What is kept and whether a comment is left open, if the line is done after so many rounds. -/
def rounds : Nat → Stripping → Option (Bytes × Bool)
  | 0, _ => none
  | n + 1, s =>
    match s.round with
    | .inl s => rounds n s
    | .inr done => some done

end Stripping

/-! ## Bytes of characters -/

/-- The byte of an ASCII character. -/
def byteOf (c : Char) : UInt8 := UInt8.ofNat c.toNat

theorem utf8EncodeChar_ascii {c : Char} (h : c.toNat < 128) : String.utf8EncodeChar c = [byteOf c] := by
  have hv : c.val.toNat ≤ 127 := Nat.le_of_lt_succ h
  simp only [String.utf8EncodeChar, hv, if_true]
  rfl

/-- All bytes of any other character are none of ASCII. -/
theorem utf8EncodeChar_high {c : Char} (h : ¬ c.toNat < 128) : ∀ b ∈ String.utf8EncodeChar c, 128 ≤ b.toNat := by
  have hv : ¬ c.val.toNat ≤ 127 := fun hv => h (Nat.lt_succ_of_le hv)
  unfold String.utf8EncodeChar
  simp only [hv, if_false]
  split
  · simp; omega
  · split
    · simp; omega
    · simp; omega

theorem byteOf_toNat {c : Char} (h : c.toNat < 128) : (byteOf c).toNat = c.toNat := by
  simp only [byteOf, UInt8.toNat_ofNat']
  omega

theorem byteOf_inj {c d : Char} (hc : c.toNat < 128) (hd : d.toNat < 128) : byteOf c = byteOf d ↔ c = d := by
  constructor
  · intro h
    have := congrArg UInt8.toNat h
    rw [byteOf_toNat hc, byteOf_toNat hd] at this
    exact Char.toNat_inj.1 this
  · rintro rfl
    rfl

theorem bytes_cons (c : Char) (t : Text) : bytes (c :: t) = String.utf8EncodeChar c ++ bytes t := rfl

theorem bytes_cons_ascii {c : Char} (h : c.toNat < 128) (t : Text) : bytes (c :: t) = byteOf c :: bytes t := by
  rw [bytes_cons, utf8EncodeChar_ascii h]
  rfl

theorem length_bytes_ascii {t : Text} (ascii : ∀ c ∈ t, c.toNat < 128) : (bytes t).length = t.length := by
  induction t with
  | nil => rfl
  | cons c t ih =>
    rw [List.forall_mem_cons] at ascii
    rw [bytes_cons_ascii ascii.1, List.length_cons, List.length_cons, ih ascii.2]

theorem bytes_append (s t : Text) : bytes (s ++ t) = bytes s ++ bytes t := List.flatMap_append

namespace Bytes

variable {p : Char} {pat t : Text} {z : Zone}

/-- A pattern of ASCII does not begin where another character has its bytes. -/
theorem isPrefixOf_high (hp : p.toNat < 128) {b : UInt8} (hb : 128 ≤ b.toNat) (u : Bytes) :
    (bytes (p :: pat)).isPrefixOf (b :: u) = false := by
  have hbyte : (byteOf p == b) = false := by
    rw [beq_eq_false_iff_ne]
    rintro rfl
    rw [byteOf_toNat hp] at hb
    omega
  rw [bytes_cons_ascii hp]
  show (byteOf p == b && _) = false
  rw [hbyte, Bool.false_and]

theorem isPrefixOf_bytes (ascii : ∀ c ∈ pat, c.toNat < 128) (t : Text) :
    (bytes pat).isPrefixOf (bytes t) = (Text.dropPrefix? pat t).isSome := by
  induction pat generalizing t with
  | nil => rfl
  | cons p pat ih =>
    rw [List.forall_mem_cons] at ascii
    cases t with
    | nil =>
      rw [bytes_cons_ascii ascii.1]
      rfl
    | cons c t =>
      rw [Text.dropPrefix?]
      by_cases hc : c.toNat < 128
      · rw [bytes_cons_ascii ascii.1, bytes_cons_ascii hc]
        show (byteOf p == byteOf c && (bytes pat).isPrefixOf (bytes t)) = _
        rw [ih ascii.2]
        by_cases h : p = c
        · simp [h]
        · simp [h, byteOf_inj ascii.1 hc]
      · obtain ⟨b, bs, hb⟩ := List.exists_cons_of_ne_nil (String.utf8EncodeChar_ne_nil (c := c))
        have high : 128 ≤ b.toNat := utf8EncodeChar_high hc b (by rw [hb]; exact List.mem_cons_self)
        have hchar : p ≠ c := by
          rintro rfl
          exact hc ascii.1
        rw [bytes_cons c, hb, if_neg hchar]
        exact isPrefixOf_high ascii.1 high _

theorem map_add_map (o : Option Nat) (m n : Nat) : (o.map (m + ·)).map (· + n) = o.map (m + n + ·) := by
  rw [Option.map_map]
  congr 1
  funext i
  show m + i + n = m + n + i
  omega

/-! ### The end of a comment -/

theorem find?_high (hp : p.toNat < 128) {l : Bytes} (hl : ∀ b ∈ l, 128 ≤ b.toNat) (u : Bytes) :
    find? (bytes (p :: pat)) (l ++ u) = (find? (bytes (p :: pat)) u).map (l.length + ·) := by
  induction l with
  | nil => simp
  | cons b l ih =>
    rw [List.forall_mem_cons] at hl
    rw [List.cons_append, find?, isPrefixOf_high hp hl.1, if_neg Bool.false_ne_true, ih hl.2, map_add_map]
    rfl

/-- The place of a pattern further on, counted from the character before. -/
theorem map_length_cons (o : Option (Text × Text)) (c : Char) :
    (o.map fun r => (c :: r.1, r.2)).map (fun r => (bytes r.1).length) =
      (o.map fun r => (bytes r.1).length).map ((String.utf8EncodeChar c).length + ·) := by
  rw [Option.map_map, Option.map_map]
  congr 1
  funext r
  exact List.length_append

theorem find?_bytes (ascii : ∀ c ∈ p :: pat, c.toNat < 128) (t : Text) :
    find? (bytes (p :: pat)) (bytes t) = (Text.cut (p :: pat) t).map fun r => (bytes r.1).length := by
  induction t with
  | nil => rfl
  | cons c t ih =>
    have begins := isPrefixOf_bytes ascii (c :: t)
    rw [Text.cut]
    cases hd : Text.dropPrefix? (p :: pat) (c :: t) with
    | some rest =>
      rw [hd] at begins
      obtain ⟨b, bs, hb⟩ := List.exists_cons_of_ne_nil (String.utf8EncodeChar_ne_nil (c := c))
      rw [bytes_cons c, hb, List.cons_append] at begins ⊢
      rw [find?, begins]
      rfl
    | none =>
      rw [hd] at begins
      refine Eq.trans ?_ (map_length_cons (Text.cut (p :: pat) t) c).symm
      rw [← ih]
      by_cases hc : c.toNat < 128
      · rw [bytes_cons_ascii hc t] at begins ⊢
        rw [find?, begins, utf8EncodeChar_ascii hc]
        simp [Nat.add_comm]
      · exact find?_high (ascii p List.mem_cons_self) (utf8EncodeChar_high hc) (bytes t)

/-! ### The beginning of a comment -/

/-- How many bytes stand in front of the pattern, when the search stands in this zone. -/
def resume? (pat : Bytes) : Zone → Bytes → Option Nat
  | .code, u => findOutside? pat false u
  | .string, u => findOutside? pat true u
  | .escape, [] => none
  | .escape, _ :: u => (findOutside? pat true u).map (· + 1)

theorem findOutside?_cons (pat : Bytes) (inString : Bool) (b : UInt8) (u : Bytes) :
    findOutside? pat inString (b :: u) =
      if inString ∧ b = backslash then (resume? pat .escape u).map (· + 1)
      else if b = quote then (findOutside? pat (!inString) u).map (· + 1)
      else if !inString ∧ pat.isPrefixOf (b :: u) then some 0
      else (findOutside? pat inString u).map (· + 1) := by
  cases u with
  | nil => rw [findOutside?.eq_def]; rfl
  | cons c u => rw [findOutside?.eq_def]; simp only [resume?, Option.map_map]; rfl

theorem byteOf_eq_quote {c : Char} (h : c.toNat < 128) : byteOf c = quote ↔ c = '"' :=
  byteOf_inj (d := '"') h (by decide)

theorem findOutside?_high (hp : p.toNat < 128) {l : Bytes} (hl : ∀ b ∈ l, 128 ≤ b.toNat) (inString : Bool) (u : Bytes) :
    findOutside? (bytes (p :: pat)) inString (l ++ u) =
      (findOutside? (bytes (p :: pat)) inString u).map (l.length + ·) := by
  induction l with
  | nil => simp
  | cons b l ih =>
    rw [List.forall_mem_cons] at hl
    have hslash : b ≠ backslash := by
      rintro rfl
      exact absurd hl.1 (by decide)
    have hquote : b ≠ quote := by
      rintro rfl
      exact absurd hl.1 (by decide)
    have none : ¬ (!inString ∧ (bytes (p :: pat)).isPrefixOf (b :: (l ++ u))) := by
      rw [isPrefixOf_high hp hl.1]
      simp
    rw [List.cons_append, findOutside?_cons, if_neg fun h => hslash h.2, if_neg hquote, if_neg none, ih hl.2, map_add_map]
    rfl

/-- Over a character of several bytes; in a literal the first of them may be the one that is passed over. -/
theorem resume?_high (hp : p.toNat < 128) {c : Char} (hc : ¬ c.toNat < 128) (z : Zone) (u : Bytes) :
    resume? (bytes (p :: pat)) z (String.utf8EncodeChar c ++ u) =
      (resume? (bytes (p :: pat)) (z.next c) u).map ((String.utf8EncodeChar c).length + ·) := by
  have high := utf8EncodeChar_high hc
  have hquote : c ≠ '"' := by
    rintro rfl
    exact hc (by decide)
  have hslash : c ≠ '\\' := by
    rintro rfl
    exact hc (by decide)
  cases z with
  | code =>
    rw [Zone.next_code hquote]
    exact findOutside?_high hp high false u
  | string =>
    rw [Zone.next_string hquote hslash]
    exact findOutside?_high hp high true u
  | escape =>
    obtain ⟨b, bs, hb⟩ := List.exists_cons_of_ne_nil (String.utf8EncodeChar_ne_nil (c := c))
    rw [hb, List.forall_mem_cons] at high
    rw [hb]
    show (findOutside? _ true (bs ++ u)).map (· + 1) = (findOutside? _ true u).map (bs.length + 1 + ·)
    rw [findOutside?_high hp high.2, map_add_map]

theorem resume?_ascii {pat : Bytes} {c : Char} (hc : c.toNat < 128) {u : Bytes}
    (h : z = .code → pat.isPrefixOf (byteOf c :: u) = false) :
    resume? pat z (byteOf c :: u) = (resume? pat (z.next c) u).map (1 + ·) := by
  have isQuote : byteOf c = quote ↔ c = '"' := byteOf_eq_quote hc
  have isBackslash : byteOf c = backslash ↔ c = '\\' := byteOf_inj (d := '\\') hc (by decide)
  simp only [Nat.add_comm 1]
  cases z with
  | code =>
    show findOutside? pat false (byteOf c :: u) = _
    rw [findOutside?_cons, h rfl]
    by_cases hq : c = '"'
    · rw [if_neg (by simp), if_pos (isQuote.2 hq), hq]
      rfl
    · rw [if_neg (by simp), if_neg (mt isQuote.1 hq), if_neg (by simp), Zone.next_code hq]
      rfl
  | string =>
    show findOutside? pat true (byteOf c :: u) = _
    rw [findOutside?_cons]
    by_cases hb : c = '\\'
    · rw [if_pos ⟨rfl, isBackslash.2 hb⟩, hb]
      rfl
    · rw [if_neg fun h => hb (isBackslash.1 h.2)]
      by_cases hq : c = '"'
      · rw [if_pos (isQuote.2 hq), hq]
        rfl
      · rw [if_neg (mt isQuote.1 hq), if_neg (by simp), Zone.next_string hq hb]
        rfl
  | escape => rfl

/-- A pattern of ASCII that begins with no quote is found where it is found among the characters. -/
theorem resume?_bytes (ascii : ∀ c ∈ p :: pat, c.toNat < 128) (hq : p ≠ '"') (z : Zone) (t : Text) :
    resume? (bytes (p :: pat)) z (bytes t) = (Zone.cutCode (p :: pat) z t).map fun r => (bytes r.1).length := by
  have hp := ascii p List.mem_cons_self
  induction t generalizing z with
  | nil => cases z <;> rfl
  | cons c t ih =>
    have begins := isPrefixOf_bytes ascii (c :: t)
    by_cases here : z = .code ∧ (Text.dropPrefix? (p :: pat) (c :: t)).isSome
    · obtain ⟨rfl, here⟩ := here
      obtain ⟨rest, hrest⟩ := Option.isSome_iff_exists.1 here
      obtain ⟨rfl, -⟩ : p = c ∧ _ := List.cons_eq_cons.1 (Text.dropPrefix?_eq_some_iff.1 hrest).symm
      rw [Zone.cutCode, if_pos rfl, hrest]
      rw [here, bytes_cons_ascii hp t] at begins
      show findOutside? (bytes (p :: pat)) false (bytes (p :: t)) = _
      rw [bytes_cons_ascii hp t, findOutside?_cons, if_neg (by simp), if_neg (mt (byteOf_eq_quote hp).1 hq),
        if_pos ⟨rfl, begins⟩]
      rfl
    · have none : (if z = .code then Text.dropPrefix? (p :: pat) (c :: t) else none) = none := by
        split
        · next hz => exact Option.not_isSome_iff_eq_none.1 fun h => here ⟨hz, h⟩
        · rfl
      rw [Zone.cutCode, none]
      refine Eq.trans ?_ (map_length_cons (Zone.cutCode (p :: pat) (z.next c) t) c).symm
      rw [← ih]
      by_cases hc : c.toNat < 128
      · rw [bytes_cons_ascii hc t] at begins ⊢
        rw [utf8EncodeChar_ascii hc]
        refine resume?_ascii hc fun hz => ?_
        rw [begins]
        exact Bool.eq_false_of_not_eq_true fun h => here ⟨hz, h⟩
      · exact resume?_high hp hc z (bytes t)

end Bytes

/-! ## Rounds -/

namespace Stripping

variable {t : Text}

theorem ascii_closeMark : ∀ c ∈ closeMark, c.toNat < 128 := by simp [closeMark]

theorem ascii_openMark : ∀ c ∈ openMark, c.toNat < 128 := by simp [openMark]

theorem drop_bytes {before mark rest : Text} (h : t = before ++ mark ++ rest) (ascii : ∀ c ∈ mark, c.toNat < 128) :
    (bytes t).drop ((bytes before).length + mark.length) = bytes rest := by
  rw [h, bytes_append, bytes_append, ← length_bytes_ascii ascii, ← List.length_append]
  exact List.drop_left

theorem round_in_comment (kept : Bytes) (t : Text) :
    round ⟨kept, bytes t, true⟩ =
      match Text.cut closeMark t with
      | some (_, rest) => .inl ⟨kept, bytes rest, false⟩
      | none => .inr (kept, true) := by
  have found : Bytes.find? (bytes closeMark) (bytes t) = (Text.cut closeMark t).map fun r => (bytes r.1).length :=
    Bytes.find?_bytes ascii_closeMark t
  rw [round, if_pos rfl, found]
  rcases hc : Text.cut closeMark t with _ | ⟨before, rest⟩
  · rfl
  · have behind := drop_bytes (Text.cut_append hc) ascii_closeMark
    show Sum.inl (Stripping.mk kept ((bytes t).drop ((bytes before).length + closeMark.length)) false) = _
    rw [behind]

theorem round_in_code (kept : Bytes) (t : Text) :
    round ⟨kept, bytes t, false⟩ =
      match Zone.cutCode openMark .code t with
      | some (before, rest) => .inl ⟨kept ++ bytes before, bytes rest, true⟩
      | none => .inr (kept ++ bytes t, false) := by
  have found : Bytes.findOutside? (bytes openMark) false (bytes t) =
      (Zone.cutCode openMark .code t).map fun r => (bytes r.1).length :=
    Bytes.resume?_bytes ascii_openMark (by decide) .code t
  rw [round, if_neg Bool.false_ne_true, found]
  rcases hc : Zone.cutCode openMark .code t with _ | ⟨before, rest⟩
  · rfl
  · have behind := drop_bytes (Zone.cutCode_append hc) ascii_openMark
    have front : (bytes t).take (bytes before).length = bytes before := by
      rw [Zone.cutCode_append hc, List.append_assoc, bytes_append]
      exact List.take_left
    show Sum.inl (Stripping.mk (kept ++ (bytes t).take (bytes before).length)
      ((bytes t).drop ((bytes before).length + openMark.length)) true) = _
    rw [behind, front]

/-- Each round but the last takes a mark of two characters off the line, so these rounds are enough. -/
theorem rounds_bytes {n : Nat} (h : t.length < 2 * n) (kept : Bytes) (inComment : Bool) :
    rounds n ⟨kept, bytes t, inComment⟩ =
      some (kept ++ bytes (uncomment inComment t).1, (uncomment inComment t).2) := by
  induction n generalizing t kept inComment with
  | zero => omega
  | succ n ih =>
    cases inComment with
    | true =>
      rw [rounds, round_in_comment]
      rcases hc : Text.cut closeMark t with _ | ⟨before, rest⟩
      · rw [uncomment_of_not_cut hc]
        simp [bytes]
      · have shorter := congrArg List.length (Text.cut_append hc)
        simp only [List.length_append, closeMark] at shorter
        rw [uncomment_of_cut hc]
        exact ih (by simp at shorter; omega) kept false
    | false =>
      rw [rounds, round_in_code]
      rcases hc : Zone.cutCode openMark .code t with _ | ⟨before, rest⟩
      · rw [uncomment_of_not_cutCode hc]
      · have shorter := congrArg List.length (Zone.cutCode_append hc)
        simp only [List.length_append, openMark] at shorter
        rw [uncomment_of_cutCode hc]
        simp only [bytes_append, ← List.append_assoc]
        exact ih (by simp at shorter; omega) (kept ++ bytes before) true

end Stripping

/-- Whatever the line, and whether a reader is in a block comment where it begins or not: what the reader keeps of the line
is what one scan of its characters keeps, and it is in a comment behind the line just if the scan ends in one. The rounds
over the bytes come to the same: they are over after at most one for every two characters and a last one, however many
more are allowed, with the bytes of what is kept. -/
theorem rounds_end_as_scan (r : Reader) (line : Text) :
    let (kept, last) := Scanner.scan (.ofFlag r.inComment) line
    uncomment r.inComment line = (kept, last.isComment) ∧
      (r.step line).1.inComment = last.isComment ∧
      ∀ more, Stripping.rounds (line.length / 2 + 1 + more) { rest := bytes line, inComment := r.inComment } =
        some (bytes kept, last.isComment) := by
  have scanned : uncomment r.inComment line = ((Scanner.scan (.ofFlag r.inComment) line).1,
      (Scanner.scan (.ofFlag r.inComment) line).2.isComment) := by
    have start : (Scanner.ofFlag r.inComment).place = Place.ofFlag r.inComment := by
      cases r.inComment <;> rfl
    rw [uncomment_eq_pass, Scanner.scan_eq_pass, Scanner.isComment_ofPlace, start]
  refine ⟨scanned, by rw [Reader.step_inComment, scanned], fun more => ?_⟩
  have enough : line.length < 2 * (line.length / 2 + 1 + more) := by omega
  rw [Stripping.rounds_bytes enough, scanned]
  rfl

/-- Marks that share a character, and a backslash in front of a character of two bytes. -/
example : Scanner.scan .comment "**/a/*/ */\"\\é/*\"//*/".toList = ("a\"\\é/*\"/".toList, .comment) := by decide

end Breadboard.Sketch
