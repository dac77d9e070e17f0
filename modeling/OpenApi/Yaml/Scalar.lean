import OpenApi.Yaml.Cursor

/-!
# Reading the text of scalars

Plain, quoted and block scalars, each from its first character. Every reader returns the text and
the place after it; `fuel` bounds the characters.
-/

namespace OpenApi.Yaml

/-! ## Plain scalars -/

/-- Whether a character separates or closes something in a flow collection. -/
def isFlowMark (c : Char) : Bool := c = ',' || c = '[' || c = ']' || c = '{' || c = '}'

/-- The characters of a plain word, up to a blank, a break, a value mark or, in a flow collection,
what separates or closes; there a colon directly before such a mark is refused. -/
def plainWord (inFlow : Bool) : Nat → Cursor → Option (List Char × Cursor)
  | 0, c => some ([], c)
  | fuel + 1, c =>
    match c.peek with
    | none => some ([], c)
    | some d =>
      let after := c.peekAt 1
      if endsWord (some d) then some ([], c)
      else if inFlow ∧ d = ':' ∧ (after.map fun e => isFlowMark e || e = '?').getD false then none
      else if (d = ':' ∧ endsWord after) ∨ (inFlow ∧ isFlowMark d) then some ([], c)
      else (plainWord inFlow fuel c.skip).map fun (word, c) => (d :: word, c)

/-- The rest of a plain scalar after `text` and a gap; also tells whether a break ended it. -/
def plainFrom (inFlow : Bool) (indent : Nat) :
    Nat → List Char → Gap → Cursor → Option (List Char × Bool × Cursor)
  | 0, text, gap, c => some (text, gap.broken, c)
  | fuel + 1, text, gap, c => do
    if c.atDocumentMark ∨ c.peek = some '#' then return (text, gap.broken, c)
    let (word, c) ← plainWord inFlow (fuel + 1) c
    if word.isEmpty then return (text, gap.broken, c)
    let text := text ++ gap.text ++ word
    if ¬endsWord c.peek ∨ c.peek = none then return (text, false, c)
    let (gap, c) ← readGap indent (fuel + 1) {} c
    if ¬inFlow ∧ c.column < indent then return (text, gap.broken, c)
    plainFrom inFlow indent fuel text gap c

/-- A plain scalar, and whether a break ended it. -/
def plainScalar (inFlow : Bool) (indent fuel : Nat) (c : Cursor) :
    Option (List Char × Bool × Cursor) :=
  plainFrom inFlow indent fuel [] {} c

/-! ## Quoted scalars -/

/-- The value of a hexadecimal digit. -/
def hexValue? (c : Char) : Option Nat :=
  if '0' ≤ c ∧ c ≤ '9' then some (c.toNat - '0'.toNat)
  else if 'a' ≤ c ∧ c ≤ 'f' then some (c.toNat - 'a'.toNat + 10)
  else if 'A' ≤ c ∧ c ≤ 'F' then some (c.toNat - 'A'.toNat + 10)
  else none

/-- The character that a number of hexadecimal digits denotes. -/
def hexCharacter (width : Nat) (c : Cursor) : Option (Char × Cursor) := do
  let digits := c.rest.take width
  if digits.length < width then none
  let code := (← digits.mapM hexValue?).foldl (fun code value => code * 16 + value) 0
  if (0xD800 ≤ code ∧ code ≤ 0xDFFF) ∨ 0x10FFFF < code then none
  some (Char.ofNat code, c.skipMany width)

/-- The character that a letter after a backslash stands for. -/
def letterEscape? (c : Char) : Option Char :=
  if c = '0' then some '\x00'
  else if c = 'a' then some '\x07'
  else if c = 'b' then some '\x08'
  else if c = 't' ∨ c = '\t' then some '\t'
  else if c = 'n' then some '\n'
  else if c = 'v' then some '\x0b'
  else if c = 'f' then some '\x0c'
  else if c = 'r' then some '\r'
  else if c = 'e' then some '\x1b'
  else if c = ' ' ∨ c = '\x22' ∨ c = '/' ∨ c = '\\' then some c
  else if c = 'N' then some (Char.ofNat 0x85)
  else if c = '_' then some (Char.ofNat 0xA0)
  else if c = 'L' then some (Char.ofNat 0x2028)
  else if c = 'P' then some (Char.ofNat 0x2029)
  else none

/-- The character that an escape stands for, after its backslash. -/
def escaped (c : Cursor) : Option (Char × Cursor) := do
  let letter ← c.peek
  if letter = 'x' then hexCharacter 2 c.skip
  else if letter = 'u' then hexCharacter 4 c.skip
  else if letter = 'U' then hexCharacter 8 c.skip
  else some (← letterEscape? letter, c.skip)

/-- The characters of a quoted word, up to a blank, a break or the closing quote, and whether an
escaped break ended it. -/
def quotedWord (single : Bool) : Nat → Cursor → Option (List Char × Bool × Cursor)
  | 0, c => some ([], false, c)
  | fuel + 1, c =>
    match c.rest with
    | [] => some ([], false, c)
    | d :: rest =>
      let onWith (d : Char) (c : Cursor) : Option (List Char × Bool × Cursor) :=
        (quotedWord single fuel c).map fun (word, cut, c) => (d :: word, cut, c)
      if endsWord (some d) then some ([], false, c)
      else if single then
        if d = '\x27' then
          if rest.head? = some '\x27' then onWith d (c.skipMany 2) else some ([], false, c)
        else onWith d c.skip
      else if d = '\x22' then some ([], false, c)
      else if d = '\\' then
        if (rest.head?.map isBreak).getD false then some ([], true, c.skip.skipBreak)
        else (escaped c.skip).bind fun (e, c) => onWith e c
      else onWith d c.skip

/-- The rest of a quoted scalar after `text`. -/
def quotedFrom (single : Bool) : Nat → List Char → Cursor → Option (List Char × Cursor)
  | 0, _, _ => none
  | fuel + 1, text, c => do
    if c.atDocumentMark ∨ c.rest.isEmpty then none
    let (word, cut, c) ← quotedWord single (fuel + 1) c
    let text := text ++ word
    if c.peek = some (if single then '\x27' else '\x22') ∧ ¬cut then return (text, c.skip)
    let (gap, c) ← readGap 0 (fuel + 1) { broken := cut } c
    let closed := c.peek = some (if single then '\x27' else '\x22')
    if closed then return (text ++ gap.text, c.skip)
    quotedFrom single fuel (text ++ gap.text) c

/-- A quoted scalar, from its opening quote. -/
def quotedScalar (single : Bool) (fuel : Nat) (c : Cursor) : Option (List Char × Cursor) :=
  quotedFrom single fuel [] c.skip

/-! ## Block scalars -/

/-- What becomes of the breaks at the end of a block scalar. -/
inductive Chomping where
  | strip
  | clip
  | keep
  deriving DecidableEq

/-- The chomping that a mark asks for. -/
def Chomping.ofMark? : Option Char → Option Chomping
  | some '+' => some keep
  | some '-' => some strip
  | _ => none

/-- The indentation that a digit asks for; zero is refused. -/
def indentMark (c : Cursor) : Option (Option Nat × Cursor) :=
  match c.peek with
  | some d =>
    if d = '0' then none
    else if d.isDigit then some (some (d.toNat - '0'.toNat), c.skip)
    else some (none, c)
  | none => some (none, c)

/-- Chomping and indentation in either order. -/
def blockHeader (c : Cursor) : Option (Chomping × Option Nat × Cursor) :=
  match Chomping.ofMark? c.peek with
  | some chomping => (indentMark c.skip).map fun (indent, c) => (chomping, indent, c)
  | none =>
    (indentMark c).map fun (indent, c) =>
      match indent, Chomping.ofMark? c.peek with
      | some _, some chomping => (chomping, indent, c.skip)
      | _, _ => (.clip, indent, c)

/-- The breaks before the next line with content, and the place of that line. Without a known
indentation the widest of the lines gives it. -/
def blockBreaks (indent : Option Nat) : Nat → (widest : Nat) → (breaks : List Char) → Cursor →
    Option (Nat × List Char × Cursor)
  | 0, widest, breaks, c => some (widest, breaks, c)
  | fuel + 1, widest, breaks, c =>
    let spaces := c.rest.takeWhile (· = ' ')
    let count :=
      match indent with
      | some indent => min spaces.length (indent - c.column)
      | none => spaces.length
    let c := c.skipMany count
    let widest := max widest c.column
    let inside : Bool :=
      match indent with
      | some indent => c.column < indent
      | none => true
    if inside ∧ c.peek = some '\t' then none
    else if (c.peek.map isBreak).getD false then
      let (kept, c) := c.takeBreak
      blockBreaks indent fuel widest (breaks ++ kept) c
    else some (widest, breaks, c)

/-- The lines of a block scalar after `text`, the break that ended the last line, and the further
breaks. -/
def blockLines (literal : Bool) (indent : Nat) :
    Nat → (text : List Char) → (last further : List Char) → (wasBlank : Bool) → Cursor →
    Option (List Char × List Char × List Char × Cursor)
  | 0, text, last, further, _, c => some (text, last, further, c)
  | fuel + 1, text, last, further, wasBlank, c => do
    if c.column ≠ indent ∨ c.rest.isEmpty then return (text, last, further, c)
    let startsBlank := (c.peek.map isBlank).getD false
    let folds := ¬literal ∧ last.head? = some '\n' ∧ ¬wasBlank ∧ ¬startsBlank
    let joint := if folds then (if further.isEmpty then [' '] else []) else last
    let (line, c) := c.takeWhile (¬isBreak ·)
    let text := text ++ joint ++ further ++ line
    let (last, c) := c.takeBreak
    let (_, further, c) ← blockBreaks (some indent) (fuel + 1) 0 [] c
    blockLines literal indent fuel text last further startsBlank c

/-- A block scalar, from its mark; `parent` is the indentation around it, if there is one. -/
def blockScalar (literal : Bool) (parent : Option Nat) (fuel : Nat) (c : Cursor) :
    Option (List Char × Cursor) := do
  let (chomping, increment, c) ← blockHeader c.skip
  let c := c.skipWhile isBlank
  let c := if c.peek = some '#' then c.skipWhile (¬isBreak ·) else c
  if ¬endsLine c.peek then none
  let c := c.skipBreak
  let known := increment.map fun increment => (parent.getD 0) + increment
  let (widest, breaks, c) ← blockBreaks known fuel 0 [] c
  let least :=
    match parent with
    | some parent => parent + 1
    | none => 0
  let indent := known.getD (max (max widest least) 1)
  let (text, last, further, c) ←
    blockLines literal indent fuel [] [] breaks false c
  let ending :=
    match chomping with
    | .strip => []
    | .clip => last
    | .keep => last ++ further
  return (text ++ ending, c)

end OpenApi.Yaml
