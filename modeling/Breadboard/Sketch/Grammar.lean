/-
  Breadboard.Sketch.Grammar — which lines spell which statements.

  `Spells line s` describes the lines of a statement from their parts, without reading them:
  white space, the name of a function, an opening parenthesis, arguments with commas between
  them and white space around each, a closing parenthesis, perhaps a semicolon, perhaps a
  comment. What each argument denotes is said by a relation of its own.
-/

import Breadboard.Sketch.Call

namespace Breadboard.Sketch

def IsGap (t : Text) : Prop := ∀ c ∈ t, Text.isBlank c = true

-- Not by instance search, which would go through all characters.
instance (g : Text) : Decidable (IsGap g) := List.decidableBAll (Text.isBlank · = true) g

/-! ## Literals -/

/-- ASCII digits and the number that they denote. -/
inductive Digits : Text → Nat → Prop
  | one {c : Char} : c.isDigit = true → Digits [c] (c.toNat - '0'.toNat)
  | more {t : Text} {n : Nat} {c : Char} :
      Digits t n → c.isDigit = true → Digits (t ++ [c]) (10 * n + (c.toNat - '0'.toNat))

/-- A number of 64 bits with an optional sign. -/
inductive SignedNumber : Text → Int → Prop
  | plain {t : Text} {n : Nat} : Digits t n → n < Text.signBit → SignedNumber t n
  | plus {t : Text} {n : Nat} : Digits t n → n < Text.signBit → SignedNumber ('+' :: t) n
  | minus {t : Text} {n : Nat} : Digits t n → n ≤ Text.signBit → SignedNumber ('-' :: t) (-n)

/-- A number without sign, with letters that name a type behind it. -/
inductive SizeNumber : Text → Nat → Prop
  | mk {t u : Text} {n : Nat} :
      Digits t n → n ≤ Text.maxWord64 → (∀ c ∈ u, c ∈ "uUlL".toList) → SizeNumber (t ++ u) n

inductive PinName : Text → PinId → Prop
  | number {t : Text} {n : Int} : SignedNumber t n → PinName t (.number n)
  | builtin : PinName "LED_BUILTIN".toList (.number 13)
  | named {c : Char} {t : Text} :
      c.isAlpha = true ∨ c = '_' → (∀ d ∈ t, d.isAlphanum = true ∨ d = '_') →
      c :: t ≠ "LED_BUILTIN".toList → PinName (c :: t) (.named (c :: t))

inductive ModeName : Text → PinMode → Prop
  | input : ModeName "INPUT".toList .input
  | inputPullup : ModeName "INPUT_PULLUP".toList .inputPullup
  | output : ModeName "OUTPUT".toList .output

inductive LevelName : Text → Level → Prop
  | high {w : String} : w ∈ ["HIGH", "1", "true"] → LevelName w.toList .high
  | low {w : String} : w ∈ ["LOW", "0", "false"] → LevelName w.toList .low

/-- What stands between the quotes of a string, and the text that it denotes. -/
inductive Quotable : Text → Text → Prop
  | nil : Quotable [] []
  | char {c : Char} {t u : Text} : c ≠ '"' → c ≠ '\\' → Quotable t u → Quotable (c :: t) (c :: u)
  | newline {t u : Text} : Quotable t u → Quotable ('\\' :: 'n' :: t) ('\n' :: u)
  | tab {t u : Text} : Quotable t u → Quotable ('\\' :: 't' :: t) ('\t' :: u)
  | self {c : Char} {t u : Text} :
      c = '\\' ∨ c = '"' → Quotable t u → Quotable ('\\' :: c :: t) (c :: u)
  | unknown {c : Char} {t u : Text} :
      c ∉ ['n', 't', '\\', '"'] → Quotable t u → Quotable ('\\' :: c :: t) ('\\' :: c :: u)

inductive Printable : Text → Text → Prop
  | string {t u : Text} : Quotable t u → Printable ('"' :: t ++ ['"']) u
  | number {t : Text} {n : Int} : SignedNumber t n → Printable t (Text.signedDecimal n)

/-! ## Calls -/

/-- The arguments of a function, and the statement that the call denotes. -/
inductive Denotes : Callee → List Text → Statement → Prop
  | pinMode {a b : Text} {p : PinId} {m : PinMode} :
      PinName a p → ModeName b m → Denotes .pinMode [a, b] (.mode p m)
  | digitalWrite {a b : Text} {p : PinId} {l : Level} :
      PinName a p → LevelName b l → Denotes .digitalWrite [a, b] (.write p l)
  | delay {a : Text} {n : Nat} : SizeNumber a n → Denotes .delay [a] (.delay n)
  | delayMicroseconds {a : Text} {n d : Nat} :
      SizeNumber a n → n ≤ 1000 * d → 1000 * d < n + 1000 →
        Denotes .delayMicroseconds [a] (.delay d)
  | serialBegin {a : Text} {n : Nat} :
      SizeNumber a n → n ≤ Text.maxWord32 → Denotes .serialBegin [a] (.begin n)
  | serialPrint {a t : Text} : Printable a t → Denotes .serialPrint [a] (.print t false)
  | newline : Denotes .serialPrintln [] (.print [] true)
  | serialPrintln {a t : Text} : Printable a t → Denotes .serialPrintln [a] (.print t true)

/-- Arguments with commas between them and white space around each. -/
inductive Listed : List Text → Text → Prop
  | none {g : Text} : IsGap g → Listed [] g
  | one {a g h : Text} : IsGap g → IsGap h → Listed [a] (g ++ a ++ h)
  | more {a b g h t : Text} {args : List Text} :
      IsGap g → IsGap h → Listed (b :: args) t →
        Listed (a :: b :: args) (g ++ a ++ h ++ ',' :: t)

/-- What may follow a call on its line. -/
inductive Ending : Text → Prop
  | bare {g : Text} : IsGap g → Ending g
  | semicolon {g h : Text} : IsGap g → IsGap h → Ending (g ++ ';' :: h)

inductive Remark : Text → Prop
  | none : Remark []
  | comment {t : Text} : Remark ('/' :: '/' :: t)

inductive Spells : Text → Statement → Prop
  | call {f : Callee} {args : List Text} {s : Statement} {g h inner e r : Text} :
      IsGap g → IsGap h → Denotes f args s → Listed args inner → Ending e → Remark r →
      Spells (g ++ f.name ++ h ++ '(' :: inner ++ ')' :: e ++ r) s

end Breadboard.Sketch
