/-
  Breadboard.Yaml.Node — the tree that a document describes.

  A document is a scalar, a sequence or a mapping of nodes. A place that may hold a node and
  has none holds the empty plain scalar. A sequence in a mapping may stand at the column of
  its key, and then nothing marks its beginning and end but its entries. A text has at most
  one document.
-/

import Breadboard.Yaml.Token

namespace Breadboard.Yaml

inductive Node where
  | scalar (text : Text) (isPlain : Bool)
  | sequence (items : List Node)
  | mapping (entries : List (Node × Node))

namespace Node

/-- What stands where nothing is written. -/
def empty : Node := scalar [] true

abbrev Step (α : Type) := List Token → Except Fault (α × List Token)

/-- Whether the next token is one of these, the end counting as every token. -/
def nextIsIn (stops : List Token) : List Token → Bool
  | [] => true
  | t :: _ => t ∈ stops

/-- Reads a node, unless one of these tokens comes first. -/
def emptyBefore (stops : List Token) (read : Step Node) : Step Node := fun ts =>
  if nextIsIn stops ts then .ok (empty, ts) else read ts

/-- Reads the value of a key, if there is one. -/
def valueBefore (stops : List Token) (read : Step Node) : Step Node
  | .value :: ts => emptyBefore stops read ts
  | ts => .ok (empty, ts)

/-- In a flow collection, moves over the comma before an entry that is not the first. -/
def separator (first : Bool) (ts : List Token) : Except Fault (List Token) :=
  match first, ts with
  | true, ts => .ok ts
  | false, .flowEntry :: ts => .ok ts
  | false, _ => .error .separatorExpected

/-! Each call takes a token or hands the same tokens on to a call that does, so that a small
multiple of the number of tokens bounds the depth of calls. -/

mutual

/-- Reads a node. `block` allows block collections, `indentless` a sequence without marked
beginning. -/
def node (fuel : Nat) (block indentless : Bool) (ts : List Token) :
    Except Fault (Node × List Token) :=
  match fuel with
  | 0 => .error .tooDeep
  | fuel + 1 =>
    match ts with
    | .scalar text isPlain :: ts => .ok (scalar text isPlain, ts)
    | .flowSequenceStart :: ts => do
      let (items, ts) ← flowItems fuel true ts
      return (sequence items, ts)
    | .flowMappingStart :: ts => do
      let (entries, ts) ← flowEntries fuel true ts
      return (mapping entries, ts)
    | .blockSequenceStart :: ts =>
      if block then do
        let (items, ts) ← blockItems fuel ts
        return (sequence items, ts)
      else .error .contentExpected
    | .blockMappingStart :: ts =>
      if block then do
        let (entries, ts) ← blockEntries fuel ts
        return (mapping entries, ts)
      else .error .contentExpected
    | .blockEntry :: _ =>
      if indentless then do
        let (items, ts) ← indentlessItems fuel ts
        return (sequence items, ts)
      else .error .contentExpected
    | _ => .error .contentExpected

def blockItems (fuel : Nat) (ts : List Token) : Except Fault (List Node × List Token) :=
  match fuel with
  | 0 => .error .tooDeep
  | fuel + 1 =>
    match ts with
    | .blockEntry :: ts => do
      let (item, ts) ← emptyBefore [.blockEntry, .blockEnd] (node fuel true false) ts
      let (items, ts) ← blockItems fuel ts
      return (item :: items, ts)
    | .blockEnd :: ts => .ok ([], ts)
    | _ => .error .entryExpected

def indentlessItems (fuel : Nat) (ts : List Token) : Except Fault (List Node × List Token) :=
  match fuel with
  | 0 => .error .tooDeep
  | fuel + 1 =>
    match ts with
    | .blockEntry :: ts => do
      let stops := [.blockEntry, .key, .value, .blockEnd]
      let (item, ts) ← emptyBefore stops (node fuel true false) ts
      let (items, ts) ← indentlessItems fuel ts
      return (item :: items, ts)
    | ts => .ok ([], ts)

def blockEntries (fuel : Nat) (ts : List Token) :
    Except Fault (List (Node × Node) × List Token) :=
  match fuel with
  | 0 => .error .tooDeep
  | fuel + 1 =>
    match ts with
    | .key :: ts => do
      let stops := [.key, .value, .blockEnd]
      let (k, ts) ← emptyBefore stops (node fuel true true) ts
      let (v, ts) ← valueBefore stops (node fuel true true) ts
      let (entries, ts) ← blockEntries fuel ts
      return ((k, v) :: entries, ts)
    | .blockEnd :: ts => .ok ([], ts)
    | _ => .error .keyExpected

def flowItems (fuel : Nat) (first : Bool) (ts : List Token) :
    Except Fault (List Node × List Token) :=
  match fuel with
  | 0 => .error .tooDeep
  | fuel + 1 =>
    match ts with
    | .flowSequenceEnd :: ts => .ok ([], ts)
    | ts => do
      match ← separator first ts with
      | .flowSequenceEnd :: ts => return ([], ts)
      | .key :: ts => do
        let (k, ts) ← soleKey fuel ts
        let (v, ts) ← valueBefore [.flowEntry, .flowSequenceEnd] (node fuel false false) ts
        let (items, ts) ← flowItems fuel false ts
        return (mapping [(k, v)] :: items, ts)
      | ts => do
        let (item, ts) ← node fuel false false ts
        let (items, ts) ← flowItems fuel false ts
        return (item :: items, ts)

/-- The key of a pair that stands in a flow sequence by itself. Where it is missing, the token
in its place is taken with it. -/
def soleKey (fuel : Nat) (ts : List Token) : Except Fault (Node × List Token) :=
  match fuel with
  | 0 => .error .tooDeep
  | fuel + 1 =>
    if nextIsIn [.value, .flowEntry, .flowSequenceEnd] ts then .ok (empty, ts.tail)
    else node fuel false false ts

def flowEntries (fuel : Nat) (first : Bool) (ts : List Token) :
    Except Fault (List (Node × Node) × List Token) :=
  match fuel with
  | 0 => .error .tooDeep
  | fuel + 1 =>
    match ts with
    | .flowMappingEnd :: ts => .ok ([], ts)
    | ts => do
      match ← separator first ts with
      | .flowMappingEnd :: ts => return ([], ts)
      | .key :: ts => do
        let (k, ts) ← emptyBefore [.value, .flowEntry, .flowMappingEnd] (node fuel false false) ts
        let (v, ts) ← valueBefore [.flowEntry, .flowMappingEnd] (node fuel false false) ts
        let (entries, ts) ← flowEntries fuel false ts
        return ((k, v) :: entries, ts)
      | ts => do
        let (k, ts) ← node fuel false false ts
        let (entries, ts) ← flowEntries fuel false ts
        return ((k, empty) :: entries, ts)

end

/-- The document of these tokens; nothing but marks of its end may follow it. -/
def ofTokens? (ts : List Token) : Except Fault (Option Node) := do
  let fuel := 4 * ts.length + 4
  let content (ts : List Token) := node fuel true false ts
  match ts with
  | [] => return none
  | _ => do
    let (root, rest) ←
      match ts with
      | .documentStart :: ts => emptyBefore [.documentStart, .documentEnd] content ts
      | ts => content ts
    match rest.dropWhile (· = .documentEnd) with
    | [] => return some root
    | _ => throw .secondDocument

/-- The document of a text, if it has one. -/
def ofText? (t : Text) : Except Fault (Option Node) := do ofTokens? (← tokens? t)

end Node

end Breadboard.Yaml
