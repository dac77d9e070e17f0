import OpenApi.Yaml.Scalar

/-!
# Tokens of a YAML text

Tokens come in reading order with one exception: a mapping key is only known by the colon after it,
so its token, and the start of a block mapping with it, are inserted before what has been read
since. Each flow level remembers the one place where a key may have started; a place is given up at
the end of its line or after 1024 characters, and giving up a place where the block structure
demands a key is an error. Indentation is a stack of columns, from which block collections start
and end.
-/

namespace OpenApi.Yaml

/-- A token. -/
inductive Token where
  | versionDirective (major minor : Nat)
  | tagDirective (handle tagStart : String)
  | documentStart
  | documentEnd
  | blockSequenceStart
  | blockMappingStart
  | blockEnd
  | flowSequenceStart
  | flowSequenceEnd
  | flowMappingStart
  | flowMappingEnd
  | blockEntry
  | flowEntry
  | key
  | value
  | aliasOf (name : String)
  | anchor (name : String)
  | tag (handle suffix : String)
  | scalar (text : String) (plain : Bool)
  deriving DecidableEq, Repr, Inhabited

/-- Where a key may have started: the number of its first token, and its place. -/
structure KeyPlace where
  token : Nat
  index : Nat
  line : Nat
  column : Nat
  required : Bool

/-- What the scanner knows. -/
structure Scanning where
  cursor : Cursor
  tokens : Array Token := #[]
  /-- The column of the innermost block collection, if there is one. -/
  indent : Option Nat := none
  /-- The columns of the block collections around it. -/
  outer : List (Option Nat) := []
  /-- Whether a key may start here. -/
  keyAllowed : Bool := true
  /-- The key places of the flow levels, the innermost first; the last is that of the block level.
  -/
  keys : List (Option KeyPlace) := [none]

/-- A step of the scanner, which may refuse the text. -/
abbrev Scan := StateT Scanning Option

namespace Scan

/-- Refuses the text. -/
def refuse : Scan α := fun _ => none

/-- Goes on only under a condition. -/
def require (condition : Bool) : Scan Unit := if condition then pure () else refuse

/-- The place reached. -/
def cursor : Scan Cursor := return (← get).cursor

/-- Moves to a place. -/
def moveTo (cursor : Cursor) : Scan Unit := modify fun s => { s with cursor }

/-- Whether the scanner is inside a flow collection. -/
def inFlow : Scan Bool := return 1 < (← get).keys.length

/-- Appends a token. -/
def emit (token : Token) : Scan Unit := modify fun s => { s with tokens := s.tokens.push token }

/-- Inserts a token before the one of a number. -/
def insert (number : Nat) (token : Token) : Scan Unit :=
  modify fun s => { s with tokens := s.tokens.insertIdxIfInBounds number token }

/-- Says whether a key may start next. -/
def allowKey (allowed : Bool) : Scan Unit := modify fun s => { s with keyAllowed := allowed }

/-- Reads something at the place reached. -/
def reading (read : Cursor → Option (α × Cursor)) : Scan α := do
  match read (← cursor) with
  | some (value, c) => moveTo c; return value
  | none => refuse

/-! ## Keys and indentation -/

/-- Gives up a key place that is no longer in reach. -/
def giveUp (c : Cursor) : Option KeyPlace → Option (Option KeyPlace)
  | none => some none
  | some place =>
    if place.line < c.line ∨ place.index + 1024 < c.index then
      if place.required then none else some none
    else some (some place)

/-- Gives up the key places that are no longer in reach. -/
def giveUpKeys : Scan Unit := do
  let s ← get
  match s.keys.mapM (giveUp s.cursor) with
  | some keys => set { s with keys }
  | none => refuse

/-- Gives up the key place of the innermost level. -/
def dropKey : Scan Unit := do
  let s ← get
  match s.keys with
  | some place :: rest =>
    require (!place.required)
    set { s with keys := none :: rest }
  | _ => pure ()

/-- Remembers that a key may start here. -/
def saveKey : Scan Unit := do
  let s ← get
  if s.keyAllowed then
    dropKey
    let c := s.cursor
    let required := s.keys.length = 1 ∧ s.indent = some c.column
    let place : KeyPlace := ⟨s.tokens.size, c.index, c.line, c.column, required⟩
    modify fun s => { s with keys := some place :: s.keys.tail }

/-- Whether a column lies left of a block collection. -/
def isLeftOf (column : Option Nat) : Option Nat → Bool
  | none => false
  | some indent =>
    match column with
    | some column => column < indent
    | none => true

/-- Ends the block collections right of a column; `fuel` bounds their number. -/
def unrollFrom (column : Option Nat) : Nat → Scan Unit
  | 0 => pure ()
  | fuel + 1 => do
    let s ← get
    if isLeftOf column s.indent then
      emit .blockEnd
      modify fun s => { s with indent := s.outer.head?.getD none, outer := s.outer.tail }
      unrollFrom column fuel

/-- Ends the block collections right of a column; flow collections have no indentation. -/
def unroll (column : Option Nat) : Scan Unit := do
  if ¬(← inFlow) then unrollFrom column ((← get).outer.length + 1)

/-- Starts a block collection at a column right of the innermost one; its token goes before the one
of `number`, or to the end. -/
def roll (column : Nat) (number : Option Nat) (token : Token) : Scan Unit := do
  let s ← get
  let deeper : Bool :=
    match s.indent with
    | none => true
    | some indent => indent < column
  if ¬(← inFlow) ∧ deeper then
    modify fun s => { s with outer := s.indent :: s.outer, indent := some column }
    match number with
    | some number => insert number token
    | none => emit token

/-! ## Between tokens -/

/-- Passes over blanks, comments and breaks. A tab does not count as a blank where a key may start.
`fuel` bounds the lines. -/
def skipToToken : Nat → Scan Unit
  | 0 => pure ()
  | fuel + 1 => do
    let s ← get
    let flow ← inFlow
    let c := s.cursor
    let c := if c.index = 0 ∧ c.peek = some '\ufeff' then c.skip else c
    let c := c.skipWhile fun d => d = ' ' || (d = '\t' && (flow || !s.keyAllowed))
    let c := if c.peek = some '#' then c.skipWhile (¬isBreak ·) else c
    moveTo c
    if (c.peek.map isBreak).getD false then
      moveTo c.skipBreak
      if ¬flow then allowKey true
      skipToToken fuel

/-! ## Directives -/

/-- A number of at most nine digits. -/
def directiveNumber : Scan Nat := reading fun c =>
  let (digits, after) := c.takeWhile Char.isDigit
  if digits.isEmpty ∨ 9 < digits.length then none
  else some (digits.foldl (fun value d => value * 10 + (d.toNat - '0'.toNat)) 0, after)

/-- Passes over a character that must come next. -/
def expect (d : Char) : Scan Unit := do
  let c ← cursor
  require (c.peek = some d)
  moveTo c.skip

/-- Passes over the blanks of a line. -/
def skipBlanks : Scan Unit := do moveTo ((← cursor).skipWhile isBlank)

/-- The handle of a tag: a mark of exclamation alone, or around a name. -/
def tagHandle (inDirective : Bool) : Scan String := do
  expect '!'
  let name ← reading fun c => some (c.takeWhile isNameChar)
  let c ← cursor
  if c.peek = some '!' then
    moveTo c.skip
    return String.ofList ('!' :: (name ++ ['!']))
  else
    require (!inDirective || name.isEmpty)
    return String.ofList ('!' :: name)

/-- A character of a tag that stands for itself. -/
def isTagChar (verbatim : Bool) (d : Char) : Bool :=
  isNameChar d || marks.contains d || (verbatim && (d = ',' || d = '[' || d = ']'))
where
  marks : List Char :=
    [';', '/', '?', ':', '@', '&', '=', '+', '$', '.', '!', '~', '*', '\x27', '(', ')']

/-- How many bytes the sequence of a first byte has. -/
def sequenceWidth? (b : Nat) : Option Nat :=
  if b < 0x80 then some 1
  else if b < 0xC0 then none
  else if b < 0xE0 then some 2
  else if b < 0xF0 then some 3
  else if b < 0xF8 then some 4
  else none

/-- The value of an escaped byte. -/
def escapedByte? : List Char → Option (Nat × List Char)
  | '%' :: a :: b :: rest => do some (16 * (← hexValue? a) + (← hexValue? b), rest)
  | _ => none

/-- The payload of the continuation bytes that follow. -/
def continuationBytes : Nat → Nat → List Char → Option (Nat × List Char)
  | 0, code, text => some (code, text)
  | count + 1, code, text => do
    let (b, rest) ← escapedByte? text
    if b < 0x80 ∨ 0xBF < b then none
    else continuationBytes count (code * 64 + (b - 0x80)) rest

/-- The characters of a tag; `fuel` bounds them. -/
def tagChars (verbatim : Bool) : Nat → List Char → Option (List Char × List Char)
  | 0, text => some ([], text)
  | fuel + 1, text =>
    match text with
    | '%' :: _ => do
      let (b, rest) ← escapedByte? text
      let width ← sequenceWidth? b
      let lead := if width = 1 then b else b % Nat.pow 2 (7 - width)
      let (code, rest) ← continuationBytes (width - 1) lead rest
      let (more, rest) ← tagChars verbatim fuel rest
      some (Char.ofNat code :: more, rest)
    | d :: rest =>
      if isTagChar verbatim d then
        (tagChars verbatim fuel rest).map fun (more, rest) => (d :: more, rest)
      else some ([], text)
    | [] => some ([], [])

/-- A tag or the start of tags, with what was already read of it. -/
def tagText (verbatim : Bool) (read : List Char) : Scan String := do
  let (text, width) ← reading fun c => do
    let (text, rest) ← tagChars verbatim (c.rest.length + 1) c.rest
    let width := c.rest.length - rest.length
    some ((text, width), c.skipMany width)
  require (width ≠ 0 || !read.isEmpty)
  return String.ofList (read.drop 1 ++ text)

/-- A directive, from its mark. -/
def directive : Scan Unit := do
  moveTo (← cursor).skip
  let name ← reading fun c => some (c.takeWhile isNameChar)
  require (endsWord (← cursor).peek)
  if name = "YAML".toList then
    skipBlanks
    let major ← directiveNumber
    expect '.'
    let minor ← directiveNumber
    emit (.versionDirective major minor)
  else if name = "TAG".toList then
    skipBlanks
    let handle ← tagHandle true
    require (((← cursor).peek.map isBlank).getD false)
    skipBlanks
    let start ← tagText true []
    require (endsWord (← cursor).peek)
    emit (.tagDirective handle start)
  else refuse
  skipBlanks
  let c ← cursor
  let c := if c.peek = some '#' then c.skipWhile (¬isBreak ·) else c
  require (endsLine c.peek)
  moveTo c.skipBreak

/-! ## Tokens -/

/-- A directive or document mark ends all that is open in the block. -/
def endBlocks : Scan Unit := do
  unroll none
  dropKey
  allowKey false

/-- The bracket that opens a flow collection. -/
def openFlow (token : Token) : Scan Unit := do
  saveKey
  modify fun s => { s with keys := none :: s.keys, keyAllowed := true }
  moveTo (← cursor).skip
  emit token

/-- The bracket that closes a flow collection. -/
def closeFlow (token : Token) : Scan Unit := do
  dropKey
  modify fun s =>
    { s with keys := if 1 < s.keys.length then s.keys.tail else s.keys, keyAllowed := false }
  moveTo (← cursor).skip
  emit token

/-- A mark in a block, which may start a collection at its column. -/
def blockMark (collection mark : Token) : Scan Unit := do
  if ¬(← inFlow) then
    require (← get).keyAllowed
    roll (← cursor).column none collection
  dropKey
  moveTo (← cursor).skip
  emit mark

/-- The colon of a value: it makes a key of what started at the remembered place. -/
def valueMark : Scan Unit := do
  let s ← get
  match s.keys with
  | some place :: rest =>
    insert place.token .key
    roll place.column (some place.token) .blockMappingStart
    modify fun s => { s with keys := none :: rest, keyAllowed := false }
  | _ =>
    let flow ← inFlow
    if ¬flow then
      require s.keyAllowed
      roll s.cursor.column none .blockMappingStart
    allowKey (!flow)
  moveTo (← cursor).skip
  emit .value

/-- An anchor or alias. -/
def anchorName : Scan String := do
  let name ← reading fun c => some (c.skip.takeWhile isNameChar)
  let ends : Bool :=
    match (← cursor).peek with
    | none => true
    | some d => endsWord (some d) || ['?', ':', ',', ']', '}', '%', '@', '\x60'].contains d
  require (!name.isEmpty && ends)
  return String.ofList name

/-- A tag, from its mark. -/
def tagMark : Scan Unit := do
  let c ← cursor
  if c.peekAt 1 = some '<' then
    moveTo (c.skipMany 2)
    let text ← tagText true []
    expect '>'
    emit (.tag "" text)
  else
    let handle ← tagHandle false
    let letters := handle.toList
    if 1 < letters.length ∧ letters.getLast? = some '!' then
      emit (.tag handle (← tagText false []))
    else
      let suffix ← tagText false letters
      emit (if suffix.isEmpty then .tag "" "!" else .tag "!" suffix)
  let next := (← cursor).peek
  require (endsWord next || ((← inFlow) && next = some ','))

/-- A scalar that may be a key. -/
def scalarToken (plain : Bool) (read : Cursor → Option (List Char × Cursor)) : Scan Unit := do
  saveKey
  allowKey false
  emit (.scalar (String.ofList (← reading read)) plain)

/-- A block scalar, which is no key. -/
def blockScalarToken (literal : Bool) (fuel : Nat) : Scan Unit := do
  dropKey
  allowKey true
  let indent := (← get).indent
  emit (.scalar (String.ofList (← reading (blockScalar literal indent fuel))) false)

/-- A plain scalar; a break at its end lets a key start after it. -/
def plainToken (fuel : Nat) : Scan Unit := do
  saveKey
  allowKey false
  let flow ← inFlow
  let indent :=
    match (← get).indent with
    | some indent => indent + 1
    | none => 0
  let (text, broken) ← reading fun c =>
    (plainScalar flow indent fuel c).map fun (text, broken, c) => ((text, broken), c)
  emit (.scalar (String.ofList text) true)
  if broken then allowKey true

/-- The characters that start no plain scalar by themselves. -/
def isIndicator (d : Char) : Bool :=
  ['-', '?', ':', ',', '[', ']', '{', '}', '#', '&', '*', '!', '|', '>', '\x27', '\x22', '%', '@',
    '\x60'].contains d

/-- The token at the place reached, the next characters being `d` and `after`; `fuel` bounds the
characters that are left. -/
def token (fuel : Nat) (d : Char) (after : Option Char) : Scan Unit := do
  let flow ← inFlow
  let c ← cursor
  if d = '%' ∧ c.column = 0 then
    endBlocks
    directive
  else if c.atMark '-' then
    endBlocks
    moveTo (c.skipMany 3)
    emit .documentStart
  else if c.atMark '.' then
    endBlocks
    moveTo (c.skipMany 3)
    emit .documentEnd
  else if d = '[' then openFlow .flowSequenceStart
  else if d = '{' then openFlow .flowMappingStart
  else if d = ']' then closeFlow .flowSequenceEnd
  else if d = '}' then closeFlow .flowMappingEnd
  else if d = ',' then
    dropKey
    allowKey true
    moveTo c.skip
    emit .flowEntry
  else if d = '-' ∧ endsWord after then
    blockMark .blockSequenceStart .blockEntry
    allowKey true
  else if d = '?' ∧ (flow ∨ endsWord after) then
    blockMark .blockMappingStart .key
    allowKey (!flow)
  else if d = ':' ∧ (flow ∨ endsWord after) then valueMark
  else if d = '*' then
    saveKey
    allowKey false
    emit (.aliasOf (← anchorName))
  else if d = '&' then
    saveKey
    allowKey false
    emit (.anchor (← anchorName))
  else if d = '!' then
    saveKey
    allowKey false
    tagMark
  else if d = '|' ∧ ¬flow then blockScalarToken true fuel
  else if d = '>' ∧ ¬flow then blockScalarToken false fuel
  else if d = '\x27' then scalarToken false (quotedScalar true fuel)
  else if d = '\x22' then scalarToken false (quotedScalar false fuel)
  else
    let spaced := (after.map isBlank).getD false
    let startsPlain :=
      (!endsWord (some d) && !isIndicator d) || (d = '-' && !spaced)
        || (!flow && (d = '?' || d = ':') && !endsWord after)
    require startsPlain
    plainToken fuel

/-- Reads tokens up to the end of the text. Every token takes up a character, so `fuel` bounds both
the tokens and the characters that are left. -/
def tokens : Nat → Scan Unit
  | 0 => refuse
  | fuel + 1 => do
    skipToToken (fuel + 1)
    giveUpKeys
    let c ← cursor
    unroll (some c.column)
    match c.rest with
    | [] =>
      unroll none
      dropKey
    | d :: rest =>
      token (fuel + 1) d rest.head?
      tokens fuel

end Scan

/-- The characters of a text without the mark of its byte order. -/
def withoutByteOrderMark : List Char → List Char
  | '\ufeff' :: rest => rest
  | text => text

/-- The tokens of a text; none if it is malformed. -/
def tokenize? (text : String) : Option (List Token) :=
  let characters := withoutByteOrderMark text.toList
  if ¬characters.all isPrintable then none
  else
    ((Scan.tokens (characters.length + 1)).run { cursor := { rest := characters } }).map
      fun (_, s) => s.tokens.toList

end OpenApi.Yaml
