import OpenApi.Pattern.Property

/-!
# Reading patterns

A recursive-descent reader with the flags in force as part of its state: a flag group changes them
for the rest of the group around it. A pattern that is refused has no more to say than that; `fuel`
bounds nesting and repetition by the length of the pattern.
-/

namespace OpenApi.Pattern

/-- The flags in force. -/
structure Flags where
  /-- Letters match in either case. -/
  ignoreCase : Bool := false
  /-- Line breaks bound `^` and `$`. -/
  multiLine : Bool := false
  /-- A dot also matches a line break. -/
  dotAll : Bool := false
  /-- Repetitions are lazy unless marked. -/
  swapGreed : Bool := false
  /-- Classes know more than ASCII. -/
  unicode : Bool := true
  /-- Blanks and comments do not count. -/
  verbose : Bool := false
  /-- A carriage return also breaks lines. -/
  crlf : Bool := false

/-- What the reader knows. -/
structure Reading where
  rest : List Char
  flags : Flags := {}
  /-- How many groups were opened. -/
  groups : Nat := 0
  /-- The named groups. -/
  names : List (String × Nat) := []

/-- A reader, which may refuse. -/
abbrev Reader := StateT Reading Option

namespace Reader

/-- Refuses the pattern. -/
def refuse : Reader α := fun _ => none

/-- The next character. -/
def peek : Reader (Option Char) := return (← get).rest.head?

/-- The rest of the pattern. -/
def rest : Reader (List Char) := return (← get).rest

/-- Moves to a place further on. -/
def moveTo (rest : List Char) : Reader Unit := modify fun r => { r with rest }

/-- Takes the next character. -/
def next : Reader Char := do
  match (← get).rest with
  | c :: rest => moveTo rest; return c
  | [] => refuse

/-- Takes a character that must come next. -/
def expect (c : Char) : Reader Unit := do
  if (← next) ≠ c then refuse

/-- Takes a character if it comes next. -/
def accept (c : Char) : Reader Bool := do
  match (← get).rest with
  | d :: rest => if c = d then moveTo rest; return true else return false
  | [] => return false

/-- What follows blanks and comments. -/
def afterBlanks (inComment : Bool) : List Char → List Char
  | [] => []
  | c :: rest =>
    if inComment then afterBlanks (c ≠ '\n') rest
    else if Text.isBlank c then afterBlanks false rest
    else if c = '#' then afterBlanks true rest
    else c :: rest

/-- Passes over blanks and comments where they do not count. -/
def skipBlanks : Reader Unit :=
  modify fun r => if r.flags.verbose then { r with rest := afterBlanks false r.rest } else r

/-! ## Escapes -/

/-- The value of a hexadecimal digit. -/
def hexValue? (c : Char) : Option Nat :=
  if '0' ≤ c ∧ c ≤ '9' then some (c.toNat - '0'.toNat)
  else if 'a' ≤ c ∧ c ≤ 'f' then some (c.toNat - 'a'.toNat + 10)
  else if 'A' ≤ c ∧ c ≤ 'F' then some (c.toNat - 'A'.toNat + 10)
  else none

/-- The character of hexadecimal digits. -/
def hexChar (digits : List Char) : Reader Char := do
  match digits.mapM hexValue? with
  | none => refuse
  | some [] => refuse
  | some values =>
    let code := values.foldl (fun code value => min (code * 16 + value) 0x110000) 0
    if code < 0xD800 ∨ (0xDFFF < code ∧ code < 0x110000) then return Char.ofNat code else refuse

/-- The character after `\x`, `\u` or `\U`, in braces or of a fixed number of digits. -/
def hexEscape (width : Nat) : Reader Char := do
  match (← rest) with
  | '{' :: inside =>
    moveTo (inside.dropWhile (· ≠ '}'))
    expect '}'
    hexChar (inside.takeWhile (· ≠ '}'))
  | text =>
    if (text.take width).length < width then refuse
    moveTo (text.drop width)
    hexChar (text.take width)

/-- Whether a character that is no letter or digit may follow a backslash and stands for itself. -/
def isEscapable (c : Char) : Bool := c.toNat < 0x80 && !c.isAlphanum && c ≠ '<' && c ≠ '>'

/-- The set of a letter escape for digits, blanks or word characters. -/
def letterSet (flags : Flags) (c : Char) : Option CharSet :=
  let pick (unicode ascii : CharSet) : CharSet := if flags.unicode then unicode else ascii
  let asciiBlank : CharSet := fun c => c.toNat < 0x80 && Text.isBlank c
  let asciiWord : CharSet := fun c => c.isAlphanum || c = '_'
  if c = 'd' then some (pick Text.isDecimal Char.isDigit)
  else if c = 's' then some (pick Text.isBlank asciiBlank)
  else if c = 'w' then some (pick Text.isWordChar asciiWord)
  else if ¬flags.unicode then none
  else if c = 'D' then some (CharSet.complement Text.isDecimal)
  else if c = 'S' then some (CharSet.complement Text.isBlank)
  else if c = 'W' then some (CharSet.complement Text.isWordChar)
  else none

/-- The assertion in braces after a word boundary, if the braces hold a name. -/
def boundaryName (unicode : Bool) : Reader Assertion := do
  match (← rest) with
  | '{' :: inside =>
    let name := inside.takeWhile (· ≠ '}')
    if (name.head?.map fun c => c.isAlpha || c = '-').getD false then
      moveTo (inside.dropWhile (· ≠ '}'))
      expect '}'
      let name := String.ofList name
      if name = "start" then return .wordStart unicode
      else if name = "end" then return .wordEnd unicode
      else if name = "start-half" then return .wordStartHalf unicode
      else if name = "end-half" then return .wordEndHalf unicode
      else refuse
    else return .boundary unicode
  | _ => return .boundary unicode

/-- A set with the case variants of its members, where letters match in either case. -/
def fold (flags : Flags) (set : CharSet) : CharSet :=
  if ¬flags.ignoreCase then set else if flags.unicode then set.folded else set.foldedAscii

/-- The set of a property, by one letter or by its name in braces. -/
def propertySet (negated : Bool) : Reader CharSet := do
  let flags := (← get).flags
  if ¬flags.unicode then refuse
  let c ← next
  let name ←
    if c = '{' then do
      let name := (← rest).takeWhile (· ≠ '}')
      moveTo ((← rest).drop name.length)
      expect '}'
      pure name
    else pure [c]
  match property? name with
  | some set => return if negated then (fold flags set).complement else fold flags set
  | none => refuse

/-- What an escape stands for. -/
inductive Escape where
  | literal (c : Char)
  | set (members : CharSet)
  | assertion (assertion : Assertion)

/-- What follows a backslash. -/
def escape : Reader Escape := do
  let flags := (← get).flags
  let c ← next
  if c = 'x' then return .literal (← hexEscape 2)
  else if c = 'u' then return .literal (← hexEscape 4)
  else if c = 'U' then return .literal (← hexEscape 8)
  else if c = 'a' then return .literal '\x07'
  else if c = 'f' then return .literal '\x0c'
  else if c = 'n' then return .literal '\n'
  else if c = 'r' then return .literal '\r'
  else if c = 't' then return .literal '\t'
  else if c = 'v' then return .literal '\x0b'
  else if c = 'A' then return .assertion .textStart
  else if c = 'z' then return .assertion .textEnd
  else if c = 'b' then return .assertion (← boundaryName flags.unicode)
  else if c = 'B' then return .assertion (.noBoundary flags.unicode)
  else if c = '<' then return .assertion (.wordStart flags.unicode)
  else if c = '>' then return .assertion (.wordEnd flags.unicode)
  else if c = 'p' ∨ c = 'P' then return .set (← propertySet (c = 'P'))
  else
    match letterSet flags c with
    | some set => return .set set
    | none => if isEscapable c then return .literal c else refuse

/-! ## Bracketed classes -/

/-- The set of a class name between `[:` and `:]`. -/
def namedSet? (name : String) : Option CharSet :=
  let between (first last : Char) : CharSet := CharSet.range first last
  if name = "alnum" then some Char.isAlphanum
  else if name = "alpha" then some Char.isAlpha
  else if name = "ascii" then some (between '\x00' '\x7f')
  else if name = "blank" then some (CharSet.ofList ['\t', ' '])
  else if name = "cntrl" then some fun c => c.toNat < 0x20 || c.toNat = 0x7F
  else if name = "digit" then some Char.isDigit
  else if name = "graph" then some (between '!' '~')
  else if name = "lower" then some Char.isLower
  else if name = "print" then some (between ' ' '~')
  else if name = "punct" then some fun c => between '!' '~' c && !c.isAlphanum
  else if name = "space" then some fun c => c.toNat < 0x80 && Text.isBlank c
  else if name = "upper" then some Char.isUpper
  else if name = "word" then some fun c => c.isAlphanum || c = '_'
  else if name = "xdigit" then some fun c => (hexValue? c).isSome
  else none

/-- A class name in brackets and colons, at the place of its bracket, and what follows it. -/
def named? : List Char → Option (CharSet × List Char)
  | '[' :: ':' :: text =>
    let (negated, text) :=
      match text with
      | '^' :: text => (true, text)
      | _ => (false, text)
    match text.dropWhile (· ≠ ':') with
    | ':' :: ']' :: after =>
      (namedSet? (String.ofList (text.takeWhile (· ≠ ':')))).map fun set =>
        (if negated then set.complement else set, after)
    | _ => none
  | _ => none

/-- The operations on sets. -/
inductive SetOperation where
  | intersection
  | difference
  | symmetricDifference

/-- The set that an operation gives. -/
def SetOperation.apply (flags : Flags) (left right : CharSet) : SetOperation → CharSet
  | intersection => fun c => fold flags left c && fold flags right c
  | difference => fun c => fold flags left c && !fold flags right c
  | symmetricDifference => fun c => fold flags left c != fold flags right c

/-- A character or set inside a class. -/
inductive ClassItem where
  | literal (c : Char)
  | set (members : CharSet)

/-- The set of an item. -/
def ClassItem.members : ClassItem → CharSet
  | literal c => (· = c)
  | set members => members

/-- One character or escape inside a class. -/
def classItem : Reader ClassItem := do
  let c ← next
  if c = '\\' then
    match (← escape) with
    | .literal c => return .literal c
    | .set members => return .set members
    | .assertion _ => refuse
  else return .literal c

/-- An item, or the range that it starts. -/
def classRange : Reader CharSet := do
  let first ← classItem
  skipBlanks
  let text ← rest
  let verbose := (← get).flags.verbose
  let isRange : Bool :=
    match text with
    | '-' :: after =>
      match if verbose then afterBlanks false after else after with
      | ']' :: _ => false
      | '-' :: _ => false
      | _ => true
    | _ => false
  if ¬isRange then
    if text.isEmpty then refuse
    return first.members
  expect '-'
  skipBlanks
  match first, (← classItem) with
  | .literal first, .literal last =>
    if last < first then refuse
    return CharSet.range first last
  | _, _ => refuse

/-- The literal hyphens at the start of a class; `fuel` bounds them. -/
def leadingHyphens : Nat → Reader CharSet
  | 0 => return fun _ => false
  | fuel + 1 => do
    skipBlanks
    if (← accept '-') then
      let _ ← leadingHyphens fuel
      return (· = '-')
    else return fun _ => false

mutual

/-- A class after its bracket. -/
def bracketed : Nat → Reader CharSet
  | 0 => refuse
  | fuel + 1 => do
    skipBlanks
    let negated ← accept '^'
    let hyphens ← leadingHyphens fuel
    skipBlanks
    let bracket ←
      if hyphens '-' then pure false else accept ']'
    let flags := (← get).flags
    let start : CharSet := fun c => hyphens c || (bracket && c = ']')
    let members ← classBody fuel none start
    let members := fold flags members
    if negated then
      if ¬flags.unicode then refuse
      return members.complement
    return members

/-- The rest of a class: `left` is an operation that waits for its right side, `union` what that
side holds so far. -/
def classBody (fuel : Nat) (left : Option (CharSet × SetOperation)) (union : CharSet) :
    Reader CharSet :=
  match fuel with
  | 0 => refuse
  | fuel + 1 => do
    skipBlanks
    let flags := (← get).flags
    let closed : CharSet :=
      match left with
      | some (left, operation) => operation.apply flags left union
      | none => union
    match (← rest) with
    | [] => refuse
    | ']' :: after => moveTo after; return closed
    | '&' :: '&' :: after =>
      moveTo after
      classBody fuel (some (closed, .intersection)) fun _ => false
    | '-' :: '-' :: after =>
      moveTo after
      classBody fuel (some (closed, .difference)) fun _ => false
    | '~' :: '~' :: after =>
      moveTo after
      classBody fuel (some (closed, .symmetricDifference)) fun _ => false
    | '[' :: after =>
      match named? ('[' :: after) with
      | some (set, after) =>
        moveTo after
        classBody fuel left fun c => union c || set c
      | none =>
        moveTo after
        let inner ← bracketed fuel
        classBody fuel left fun c => union c || inner c
    | _ =>
      let set ← classRange
      classBody fuel left fun c => union c || set c

end

/-! ## Groups and flags -/

/-- Sets or clears a flag. -/
def setFlag (flags : Flags) (on : Bool) (c : Char) : Option Flags :=
  if c = 'i' then some { flags with ignoreCase := on }
  else if c = 'm' then some { flags with multiLine := on }
  else if c = 's' then some { flags with dotAll := on }
  else if c = 'U' then some { flags with swapGreed := on }
  else if c = 'u' then some { flags with unicode := on }
  else if c = 'R' then some { flags with crlf := on }
  else if c = 'x' then some { flags with verbose := on }
  else none

/-- Flags up to the colon or parenthesis after them, which is left; `seen` holds what was read. -/
def readFlags (seen : List Char) (on : Bool) (flags : Flags) : Nat → Reader (List Char × Flags)
  | 0 => refuse
  | fuel + 1 => do
    match (← peek) with
    | none => refuse
    | some c =>
      if c = ':' ∨ c = ')' then
        if seen.head? = some '-' then refuse
        return (seen, flags)
      else
        if seen.contains c then refuse
        let _ ← next
        if c = '-' then readFlags (c :: seen) false flags fuel
        else
          match setFlag flags on c with
          | some flags => readFlags (c :: seen) on flags fuel
          | none => refuse

/-- Whether a character may stand in the name of a group. -/
def isNameChar (first : Bool) (c : Char) : Bool :=
  c = '_' || (Text.isAlphanumeric c && (!first || !Text.isNumeric c))
    || (!first && (c = '.' || c = '[' || c = ']'))

/-- The name of a group, up to its angle bracket. -/
def groupName : Reader String := do
  let text ← rest
  let name := text.takeWhile (· ≠ '>')
  moveTo (text.drop name.length)
  expect '>'
  match name with
  | [] => refuse
  | first :: others =>
    if isNameChar true first ∧ others.all (isNameChar false) then return String.ofList name
    else refuse

/-- Opens a capturing group. -/
def openGroup : Reader Nat := do
  let index := (← get).groups + 1
  modify fun r => { r with groups := index }
  return index

/-- Gives a name to a group. -/
def nameGroup (name : String) (index : Nat) : Reader Unit := do
  if ((← get).names.lookup name).isSome then refuse
  modify fun r => { r with names := (name, index) :: r.names }

/-! ## Repetitions -/

/-- The blank characters at the start of a text passed over. -/
def skipPlainBlanks : Reader Unit :=
  modify fun r => { r with rest := r.rest.dropWhile Text.isBlank }

/-- A decimal number with blanks around it. -/
def decimal : Reader Nat := do
  skipPlainBlanks
  let digits := (← rest).takeWhile Char.isDigit
  moveTo ((← rest).dropWhile Char.isDigit)
  skipPlainBlanks
  let value : Nat := digits.foldl (fun value c => value * 10 + (c.toNat - '0'.toNat)) 0
  if digits.isEmpty ∨ Nat.pow 2 32 ≤ value then refuse
  return value

/-- The counts in braces, after the brace. -/
def counts : Reader (Nat × Option Nat) := do
  let least ← decimal
  if (← accept ',') then
    match (← peek) with
    | some '}' =>
      expect '}'
      return (least, none)
    | _ =>
      let most ← decimal
      expect '}'
      if most < least then refuse
      return (least, some most)
  else
    expect '}'
    return (least, some least)

/-- The repetition of an item, with its mark of laziness. -/
def repeated (counts : Nat × Option Nat) (item : Node) : Reader Node := do
  let lazy ← accept '?'
  let greedy := lazy == (← get).flags.swapGreed
  return .repetition counts.1 counts.2 greedy item

/-! ## Patterns -/

/-- The set of a literal. -/
def literal (flags : Flags) (c : Char) : Node := .set (fold flags (· = c))

/-- The set of a dot. -/
def dot : Reader Node := do
  let flags := (← get).flags
  if ¬flags.unicode then refuse
  if flags.dotAll then return .set fun _ => true
  else if flags.crlf then return .set fun c => c ≠ '\n' && c ≠ '\r'
  else return .set (· ≠ '\n')

/-- The assertion of a start or end mark. -/
def anchor (atStart : Bool) : Reader Node := do
  let flags := (← get).flags
  let assertion : Assertion :=
    match atStart, flags.multiLine, flags.crlf with
    | true, false, _ => .textStart
    | false, false, _ => .textEnd
    | true, true, false => .lineStart
    | false, true, false => .lineEnd
    | true, true, true => .crlfLineStart
    | false, true, true => .crlfLineEnd
  return .assertion assertion

/-- Items in the order in which they were read, from the reverse. -/
def sequenceOf (items : List (Node × Bool)) : Node := .sequence (items.reverse.map Prod.fst)

/-- The choice between alternatives, from their reverse. -/
def choiceOf (alternatives : List Node) : Node :=
  match alternatives with
  | [only] => only
  | alternatives => .choice alternatives.reverse

mutual

/-- Alternatives up to a closing parenthesis, which is left, or the end. `done` holds the
alternatives before, `items` the items of the current one and whether each can be repeated, both in
reverse. -/
def alternatives (fuel : Nat) (done : List Node) (items : List (Node × Bool)) : Reader Node :=
  match fuel with
  | 0 => refuse
  | fuel + 1 => do
    skipBlanks
    match (← rest) with
    | [] => return choiceOf (sequenceOf items :: done)
    | ')' :: _ => return choiceOf (sequenceOf items :: done)
    | '|' :: after =>
      moveTo after
      alternatives fuel (sequenceOf items :: done) []
    | c :: after =>
      moveTo after
      let repeatLast (range : Nat × Option Nat) : Reader Node := do
        match items with
        | (item, true) :: before =>
          let item ← repeated range item
          alternatives fuel done ((item, true) :: before)
        | _ => refuse
      if c = '*' then repeatLast (0, none)
      else if c = '+' then repeatLast (1, none)
      else if c = '?' then repeatLast (0, some 1)
      else if c = '{' then
        match items with
        | (_, true) :: _ => repeatLast (← counts)
        | _ => refuse
      else if c = '(' then
        let item ← group fuel
        alternatives fuel done (item :: items)
      else
        let item ← single fuel c
        alternatives fuel done ((item, true) :: items)

/-- A group after its parenthesis, and whether it can be repeated. -/
def group (fuel : Nat) : Reader (Node × Bool) :=
  match fuel with
  | 0 => refuse
  | fuel + 1 => do
    skipBlanks
    let outer := (← get).flags
    match (← rest) with
    | '?' :: 'P' :: '<' :: after =>
      moveTo after
      capture fuel outer true
    | '?' :: '<' :: after =>
      moveTo after
      capture fuel outer true
    | '?' :: after =>
      moveTo after
      let (seen, flags) ← readFlags [] true outer fuel
      if (← accept ')') then
        if seen.isEmpty then refuse
        modify fun r => { r with flags }
        return (.empty, false)
      expect ':'
      modify fun r => { r with flags }
      let body ← alternatives fuel [] []
      expect ')'
      modify fun r => { r with flags := outer }
      return (body, true)
    | _ => capture fuel outer false

/-- A capturing group after what introduces it. -/
def capture (fuel : Nat) (outer : Flags) (isNamed : Bool) : Reader (Node × Bool) :=
  match fuel with
  | 0 => refuse
  | fuel + 1 => do
    let index ← openGroup
    if isNamed then nameGroup (← groupName) index
    let body ← alternatives fuel [] []
    expect ')'
    modify fun r => { r with flags := outer }
    return (.group index body, true)

/-- What a character that is no operator stands for. -/
def single (fuel : Nat) (c : Char) : Reader Node :=
  match fuel with
  | 0 => refuse
  | fuel + 1 => do
    let flags := (← get).flags
    if c = '[' then return .set (← bracketed fuel)
    else if c = '.' then dot
    else if c = '^' then anchor true
    else if c = '$' then anchor false
    else if c = '\\' then
      match (← escape) with
      | .literal c => return literal flags c
      | .set members => return .set members
      | .assertion assertion => return .assertion assertion
    else return literal flags c

end

end Reader

/-- How many instructions a pattern may have. -/
def sizeLimit : Nat := 100000

/-- A pattern that was read: its syntax, and the names of its groups. -/
structure Parsed where
  node : Node
  groups : Nat
  names : List (String × Nat)

/-- Reads a pattern; none if it is malformed or too large. -/
def parse? (text : String) : Option Parsed :=
  let characters := text.toList
  let fuel := 4 * characters.length + 8
  match (Reader.alternatives fuel [] []).run { rest := characters } with
  | some (node, reading) =>
    if ¬reading.rest.isEmpty ∨ sizeLimit < node.size then none
    else some ⟨node, reading.groups, reading.names⟩
  | none => none

end OpenApi.Pattern
