/-
  Breadboard.Settings.Reading — settings from the text of a file.

  The document is a mapping, or nothing at all. A key that the settings know may come once;
  other keys are passed over, whatever they hold. What is missing has its default, except
  for the id, the kind and the pin of a part.
-/

import Breadboard.Settings.Basic
import Breadboard.Yaml.Node
import Breadboard.Yaml.Scalar

namespace Breadboard

namespace Settings

abbrev Reading (α : Type) := Except SettingsFault α

/-- The entries of a mapping; nothing written counts as an empty one. -/
def entries? : Yaml.Node → Option (List (Yaml.Node × Yaml.Node))
  | .mapping entries => some entries
  | .scalar [] true => some []
  | _ => none

/-- The items of a sequence; nothing written counts as an empty one. -/
def items? : Yaml.Node → Option (List Yaml.Node)
  | .sequence items => some items
  | .scalar [] true => some []
  | _ => none

/-- The entries under their keys, which have to be scalars. -/
def fields (n : Yaml.Node) : Reading (List (Text × Yaml.Node)) :=
  match entries? n with
  | none => .error .notMapping
  | some entries => entries.mapM fun (k, v) =>
    match k with
    | .scalar key _ => .ok (key, v)
    | _ => .error .notMapping

/-- The value under a key that may come once. -/
def field? (key : Text) (fields : List (Text × Yaml.Node)) : Reading (Option Yaml.Node) :=
  match fields.filter (·.1 = key) with
  | [] => .ok none
  | [(_, v)] => .ok (some v)
  | _ => .error (.repeated key)

/-- The value under a key as `read` takes it. -/
def optional (fields : List (Text × Yaml.Node)) (name : String) (read : Yaml.Node → Option α)
    (default : α) : Reading α := do
  let key := name.toList
  match ← field? key fields with
  | none => return default
  | some v =>
    match read v with
    | some a => return a
    | none => throw (.badValue key)

def required (fields : List (Text × Yaml.Node)) (name : String) (read : Yaml.Node → Option α) :
    Reading α := do
  match ← optional fields name (fun v => (read v).map some) none with
  | some a => return a
  | none => throw (.missing name.toList)

/-! ## Values -/

def count? (max : Nat) : Yaml.Node → Option Nat
  | .scalar t true => (Yaml.unsignedOf? t).filter (· ≤ max)
  | _ => none

def truth? : Yaml.Node → Option Bool
  | .scalar t true => Yaml.truthOf? t
  | _ => none

/-- Any scalar as it is written. -/
def text? : Yaml.Node → Option Text
  | .scalar t _ => some t
  | _ => none

def kind? (n : Yaml.Node) : Option PeripheralKind := do
  let t ← text? n
  PeripheralKind.all.find? (·.word = t)

/-- The range of signed and unsigned numbers of 128 bits together. -/
def isWord128 (n : Int) : Bool :=
  -0x80000000000000000000000000000000 ≤ n && n ≤ 0xFFFFFFFFFFFFFFFFFFFFFFFFFFFFFFFF

/-- The pin that a plain scalar names: a number of 64 bits, or a text that stands for nothing
else. Larger integers of up to 128 bits are refused. -/
def plainPin? (t : Text) : Option PinId :=
  let named := if Yaml.isFloat t then none else some (PinId.named t)
  if t.isEmpty || Yaml.isNullWord t || (Yaml.truthOf? t).isSome then none
  else match Yaml.integerOf? t with
    | some n =>
      if Text.isWord64 n then some (.number n)
      else if isWord128 n then none
      else named
    | none => named

def pin? : Yaml.Node → Option PinId
  | .scalar t true => plainPin? t
  | .scalar t false => some (.named t)
  | _ => none

def position? (n : Yaml.Node) : Option (Nat × Nat) := do
  match ← items? n with
  | [x, y] => return (← count? 65535 x, ← count? 65535 y)
  | _ => none

/-! ## Parts and settings -/

def peripheral (n : Yaml.Node) : Reading Peripheral := do
  let fs ← fields n
  let id ← required fs "id" text?
  let kind ← required fs "kind" kind?
  let pin ← required fs "pin" pin?
  let position ← optional fs "position" position? (0, 0)
  return { id, kind, pin, position }

def ofNode (n : Yaml.Node) : Reading Settings := do
  let fs ← fields n
  let tick ← optional fs "tick_ms" (count? Text.maxWord64) ({} : Settings).tick
  let parts ← optional fs "peripherals" (fun n => (items? n).map some) none
  let peripherals ← match parts with
    | some items => items.mapM peripheral
    | none => pure ({} : Settings).peripherals
  let timestamps ← optional fs "serial_timestamps" truth? true
  let historyLimit ← optional fs "history_limit" (count? Text.maxWord64) defaultHistoryLimit
  return { tick, peripherals, timestamps, historyLimit }

/-- The settings that a text holds. -/
def ofText? (t : Text) : Except SettingsError Settings := do
  let root ← match Yaml.Node.ofText? t with
    | .ok root => pure (root.getD .empty)
    | .error fault => throw (.malformed (.malformed fault))
  match ofNode root with
  | .ok s => s.validate
  | .error fault => throw (.malformed fault)

/-- The text of a file's bytes. -/
def textOfBytes? (bytes : ByteArray) : Except FileFault Text :=
  match String.fromUTF8? bytes with
  | some s => .ok s.toList
  | none => .error .notText

/-- The settings in a file, or why there are none. -/
def ofFile? (content : Except FileFault Text) : Except SettingsError Settings :=
  match content with
  | .ok t => ofText? t
  | .error fault => .error (.unreadable fault)

end Settings

end Breadboard
