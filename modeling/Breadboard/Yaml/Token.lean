/-
  Breadboard.Yaml.Token — the tokens of a document.

  Structure comes from punctuation and from indentation: where a line stands further right
  than the block around it, a block begins, and where it stands further left, blocks end. A
  key is known only by the colon after it. So each place where a key may begin is remembered
  as a candidate (`Candidate`), and a colon that finds one puts the key token, and perhaps
  the beginning of a mapping, back in front of it. A candidate is given up at the end of its
  line; if a key had to stand there, that is an error.
-/

import Breadboard.Yaml.Quoted

namespace Breadboard.Yaml

inductive Token where
  | documentStart
  | documentEnd
  | blockSequenceStart
  | blockMappingStart
  | blockEnd
  | blockEntry
  | flowSequenceStart
  | flowSequenceEnd
  | flowMappingStart
  | flowMappingEnd
  | flowEntry
  | key
  | value
  | scalar (text : Text) (isPlain : Bool)
  deriving DecidableEq, Repr

/-- A place where a key may begin. -/
structure Candidate where
  /-- Whether only a key may stand there. -/
  required : Bool
  /-- The number of tokens before it. -/
  token : Nat
  position : Position
  deriving DecidableEq, Repr

/-- How far a text has been read. -/
structure Tokenizer where
  rest : Text
  position : Position := {}
  tokens : Array Token := #[]
  /-- The column of the innermost block, one to the left of the page outside all blocks. -/
  indent : Int := -1
  outerIndents : List Int := []
  /-- The candidates of the flow collections around this place, the innermost first. -/
  outerKeys : List (Option Candidate) := []
  key : Option Candidate := none
  keyAllowed : Bool := true

namespace Tokenizer

def inFlow (s : Tokenizer) : Bool := !s.outerKeys.isEmpty

def emit (s : Tokenizer) (t : Token) : Tokenizer := { s with tokens := s.tokens.push t }

/-- Moves over so many characters of a line. -/
def skip (s : Tokenizer) (n : Nat) : Tokenizer :=
  { s with rest := s.rest.drop n, position := s.position.past (s.rest.take n) }

/-- Puts a token behind the first `place` ones. -/
def insert (s : Tokenizer) (place : Nat) (t : Token) : Tokenizer :=
  { s with tokens := s.tokens.insertIdxIfInBounds place t }

/-! ## Indentation -/

/-- Ends the blocks that stand further right than a column. -/
def unrollTo (column : Int) : Int → List Int → Array Token → Int × List Int × Array Token
  | indent, [], ts => (indent, [], ts)
  | indent, outer :: outers, ts =>
    if column < indent then unrollTo column outer outers (ts.push .blockEnd)
    else (indent, outer :: outers, ts)

def unroll (s : Tokenizer) (column : Int) : Tokenizer :=
  if s.inFlow then s
  else
    let (indent, outerIndents, tokens) := unrollTo column s.indent s.outerIndents s.tokens
    { s with indent, outerIndents, tokens }

/-- Begins a block at a column, its first token being the one at `place`. -/
def roll (s : Tokenizer) (column place : Nat) (t : Token) : Tokenizer :=
  if s.inFlow || (column : Int) ≤ s.indent then s
  else { s.insert place t with indent := column, outerIndents := s.indent :: s.outerIndents }

def rollHere (s : Tokenizer) (t : Token) : Tokenizer :=
  s.roll s.position.column s.tokens.size t

/-! ## Candidates for keys -/

def dropKey (s : Tokenizer) : Except Fault Tokenizer :=
  if s.key.any (·.required) then .error .keyWithoutColon else .ok { s with key := none }

/-- Remembers that a key may begin here. -/
def markKey (s : Tokenizer) : Except Fault Tokenizer :=
  if s.keyAllowed then do
    let required := !s.inFlow && s.indent == s.position.column
    let s ← s.dropKey
    .ok { s with key := some ⟨required, s.tokens.size, s.position⟩ }
  else .ok s

/-- A key has to end on the line on which it begins, and within 1024 bytes. -/
def isStale (here : Position) (c : Candidate) : Bool :=
  c.position.line < here.line || c.position.index + 1024 < here.index

/-- Gives up the candidate once it is stale. Those outside a flow collection wait until the
collection has ended. -/
def dropStale (s : Tokenizer) : Except Fault Tokenizer :=
  if s.key.any (isStale s.position) then s.dropKey else .ok s

/-! ## White space and comments -/

/-- Moves to the next token. A break lets a key begin in a block; a tab is white space only
where no key may begin. A byte order mark in front of a line belongs to the gap, and what follows it
on the line stands one column further right. -/
def gapFrom (inFlow inComment keyAllowed : Bool) (p : Position) : Text → Bool × Position × Text
  | [] => (keyAllowed, p, [])
  | c :: t =>
    if c = '\r' ∧ t.head? = some '\n' then gapFrom inFlow inComment keyAllowed (p.next c) t
    else if isBreak c then gapFrom inFlow false (keyAllowed || !inFlow) (p.newLine c) t
    else if inComment || c == '#' then gapFrom inFlow true keyAllowed (p.next c) t
    else if c == ' ' || (c == '\t' && (inFlow || !keyAllowed)) ||
        (c == orderMark && p.column == 0) then
      gapFrom inFlow false keyAllowed (p.next c) t
    else (keyAllowed, p, c :: t)

def skipGap (s : Tokenizer) : Tokenizer :=
  let (keyAllowed, position, rest) := gapFrom s.inFlow false s.keyAllowed s.position s.rest
  { s with keyAllowed, position, rest }

/-! ## Tokens -/

def documentMark (s : Tokenizer) (t : Token) : Except Fault Tokenizer := do
  let s ← (s.unroll (-1)).dropKey
  return { s.emit t with keyAllowed := false }.skip 3

def flowStart (s : Tokenizer) (t : Token) : Except Fault Tokenizer := do
  let s ← s.markKey
  return { s.emit t with outerKeys := s.key :: s.outerKeys, key := none, keyAllowed := true }.skip 1

def flowEnd (s : Tokenizer) (t : Token) : Except Fault Tokenizer := do
  let s ← s.dropKey
  let s := match s.outerKeys with
    | key :: outerKeys => { s with key, outerKeys }
    | [] => s
  return { s.emit t with keyAllowed := false }.skip 1

def flowEntry (s : Tokenizer) : Except Fault Tokenizer := do
  let s ← s.dropKey
  return { s.emit .flowEntry with keyAllowed := true }.skip 1

def blockEntry (s : Tokenizer) : Except Fault Tokenizer := do
  if !s.inFlow && !s.keyAllowed then throw .misplacedEntry
  let s ← (s.rollHere .blockSequenceStart).dropKey
  return { s.emit .blockEntry with keyAllowed := true }.skip 1

def keyMark (s : Tokenizer) : Except Fault Tokenizer := do
  if !s.inFlow && !s.keyAllowed then throw .misplacedKey
  let s ← (s.rollHere .blockMappingStart).dropKey
  return { s.emit .key with keyAllowed := !s.inFlow }.skip 1

def valueMark (s : Tokenizer) : Except Fault Tokenizer :=
  match s.key with
  | some c =>
    let s := (s.insert c.token .key).roll c.position.column c.token .blockMappingStart
    .ok ({ s.emit .value with key := none, keyAllowed := false }.skip 1)
  | none =>
    if !s.inFlow && !s.keyAllowed then .error .misplacedValue
    else
      let s := s.rollHere .blockMappingStart
      .ok ({ s.emit .value with keyAllowed := !s.inFlow }.skip 1)

def scalar (s : Tokenizer) (isPlain : Bool)
    (scan : Tokenizer → Except Fault Scanned) : Except Fault Tokenizer := do
  let s ← s.markKey
  let found ← scan s
  return { s.emit (.scalar found.text isPlain) with
    rest := found.rest, position := found.position, keyAllowed := found.broken }

def quotedScalar (s : Tokenizer) (double : Bool) : Except Fault Tokenizer :=
  s.scalar false fun s =>
    let p := s.position.past (s.rest.take 1)
    if double then doubleQuoted .none [] {} p s.rest.tail else singleQuoted [] {} p s.rest.tail

def plainScalar (s : Tokenizer) : Except Fault Tokenizer :=
  s.scalar true fun s => plain s.inFlow (s.indent + 1).toNat [] {} s.position s.rest

/-- The characters with which no plain scalar begins. -/
def isIndicator (c : Char) : Bool :=
  "-?:,[]\x7b\x7d#&*!|>'\"%@\x60".toList.contains c

def beginsPlain (inFlow : Bool) (c : Char) (t : Text) : Bool :=
  !(isSpace c || isBreak c || isIndicator c) || (c == '-' && !(t.head?.any isSpace)) ||
    (!inFlow && (c == '?' || c == ':') && !endsWord t)

/-- Reads the token that begins here, after the gap in front of it. -/
def readToken (s : Tokenizer) (c : Char) (t : Text) : Except Fault Tokenizer :=
  if atDocumentMark s.position (c :: t) then
    s.documentMark (if c = '-' then .documentStart else .documentEnd)
  else match c with
    | '[' => s.flowStart .flowSequenceStart
    | '{' => s.flowStart .flowMappingStart
    | ']' => s.flowEnd .flowSequenceEnd
    | '}' => s.flowEnd .flowMappingEnd
    | ',' => s.flowEntry
    | '\'' => s.quotedScalar false
    | '"' => s.quotedScalar true
    | _ =>
      if c == '-' && endsWord t then s.blockEntry
      else if c == '?' && (s.inFlow || endsWord t) then s.keyMark
      else if c == ':' && (s.inFlow || endsWord t) then s.valueMark
      else if beginsPlain s.inFlow c t then s.plainScalar
      else .error (.strayCharacter c)

/-- Reads on to the end of the text; each step takes at least one character, so that the length
of the text bounds their number. -/
def readAll : Nat → Tokenizer → Except Fault (List Token)
  | 0, _ => .error .tooDeep
  | fuel + 1, s => do
    let s ← s.skipGap.dropStale
    let s := s.unroll s.position.column
    match s.rest with
    | [] => do
      let s ← (s.unroll (-1)).dropKey
      return s.tokens.toList
    | c :: t => do readAll fuel (← s.readToken c t)

end Tokenizer

def tokens? (t : Text) : Except Fault (List Token) :=
  match t.find? (!isAllowed ·) with
  | some c => .error (.forbiddenCharacter c)
  | none => Tokenizer.readAll (t.length + 2) { rest := t }

end Breadboard.Yaml
