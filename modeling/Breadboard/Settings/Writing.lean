/-
  Breadboard.Settings.Writing — settings as the text of a file.

  One key a line in a fixed order, sequences with a dash for each item at the column of
  their key. A text is written plain where it reads back as that text, otherwise in quotes.
-/

import Breadboard.Settings.Reading

namespace Breadboard

namespace Settings

/-- Characters that a plain scalar may hold anywhere. -/
def isPlainChar (c : Char) : Bool := c.isAlphanum || c == '_' || c == '-' || c == '.'

def readsAsText (t : Text) : Bool :=
  !(t.isEmpty || Yaml.isNullWord t || (Yaml.truthOf? t).isSome || (Yaml.integerOf? t).isSome ||
    Yaml.isFloat t)

def hexDigits (width n : Nat) : Text :=
  let digits := Nat.toDigits 16 n
  List.replicate (width - digits.length) '0' ++ digits

/-- A character in double quotes. -/
def quotedChar (c : Char) : Text :=
  if c = '"' then ['\\', '"']
  else if c = '\\' then ['\\', '\\']
  else if c = '\n' then ['\\', 'n']
  else if c = '\t' then ['\\', 't']
  else if 0x20 ≤ c.toNat ∧ c.toNat ≤ 0x7E then [c]
  else ['\\', 'U'] ++ hexDigits 8 c.toNat

def writtenText (t : Text) : Text :=
  if (t.head?.any Char.isAlpha) && t.all isPlainChar && readsAsText t then t
  else '"' :: t.flatMap quotedChar ++ ['"']

def writtenPin : PinId → Text
  | .number n => Text.signedDecimal n
  | .named t => writtenText t

def line (words : List Text) : Text := words.flatten ++ ['\n']

def writtenPeripheral (p : Peripheral) : Text :=
  line ["- id: ".toList, writtenText p.id] ++
  line ["  kind: ".toList, p.kind.word] ++
  line ["  pin: ".toList, writtenPin p.pin] ++
  line ["  position:".toList] ++
  line ["  - ".toList, Text.decimal p.position.1] ++
  line ["  - ".toList, Text.decimal p.position.2]

def render (s : Settings) : Text :=
  line ["tick_ms: ".toList, Text.decimal s.tick] ++
  (if s.peripherals.isEmpty then line ["peripherals: []".toList]
    else line ["peripherals:".toList] ++ s.peripherals.flatMap writtenPeripheral) ++
  line ["serial_timestamps: ".toList, (if s.timestamps then "true" else "false").toList] ++
  line ["history_limit: ".toList, Text.decimal s.historyLimit]

end Settings

end Breadboard
