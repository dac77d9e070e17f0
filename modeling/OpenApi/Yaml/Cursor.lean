/-!
# Places in a YAML text

A cursor is the rest of a text with its place. Besides carriage return and line feed three further
characters break lines; a carriage return and a line feed together are one break. Lines are joined
by folding: a single break becomes a blank, further ones stay.
-/

namespace OpenApi.Yaml

/-- The rest of a text, how many characters precede it, and where it starts. -/
structure Cursor where
  rest : List Char
  index : Nat := 0
  line : Nat := 0
  column : Nat := 0
  deriving Inhabited

/-- The characters that a YAML text may hold. -/
def isPrintable (c : Char) : Bool :=
  c = '\t' || c = '\n' || c = '\r' || (0x20 ≤ c.toNat && c.toNat ≤ 0x7E) || c.toNat = 0x85
    || (0xA0 ≤ c.toNat && c.toNat ≤ 0xFFFD) || 0x10000 ≤ c.toNat

/-- A blank inside a line. -/
def isBlank (c : Char) : Bool := c = ' ' || c = '\t'

/-- A character that breaks lines. -/
def isBreak (c : Char) : Bool :=
  c = '\n' || c = '\r' || c.toNat = 0x85 || c.toNat = 0x2028 || c.toNat = 0x2029

/-- Whether a blank, a break or the end of the text is next. -/
def endsWord : Option Char → Bool
  | none => true
  | some c => isBlank c || isBreak c

/-- Whether a break or the end of the text is next. -/
def endsLine : Option Char → Bool
  | none => true
  | some c => isBreak c

/-- A character of anchors, tag handles and directive names. -/
def isNameChar (c : Char) : Bool := c.isAlphanum || c = '_' || c = '-'

namespace Cursor

/-- The next character. -/
def peek (c : Cursor) : Option Char := c.rest.head?

/-- The character after `k` others. -/
def peekAt (c : Cursor) (k : Nat) : Option Char := (c.rest.drop k).head?

/-- Passes over one character of a line. -/
def skip (c : Cursor) : Cursor :=
  { c with rest := c.rest.drop 1, index := c.index + 1, column := c.column + 1 }

/-- Passes over some characters of a line. -/
def skipMany (c : Cursor) (count : Nat) : Cursor :=
  { c with rest := c.rest.drop count, index := c.index + count, column := c.column + count }

/-- Passes over the characters of a line that satisfy a test, and tells them. -/
def takeWhile (c : Cursor) (test : Char → Bool) : List Char × Cursor :=
  let taken := c.rest.takeWhile test
  (taken, c.skipMany taken.length)

/-- Passes over the characters of a line that satisfy a test. -/
def skipWhile (c : Cursor) (test : Char → Bool) : Cursor := (c.takeWhile test).2

/-- Passes over a break, and tells how it is kept. -/
def takeBreak (c : Cursor) : List Char × Cursor :=
  let next (rest : List Char) (width : Nat) : Cursor :=
    { rest, index := c.index + width, line := c.line + 1, column := 0 }
  match c.rest with
  | '\r' :: '\n' :: rest => (['\n'], next rest 2)
  | d :: rest =>
    if d.toNat = 0x2028 ∨ d.toNat = 0x2029 then ([d], next rest 1)
    else if isBreak d then (['\n'], next rest 1)
    else ([], c)
  | [] => ([], c)

/-- Passes over a break. -/
def skipBreak (c : Cursor) : Cursor := c.takeBreak.2

/-- Whether the line starts with a mark of three characters that stands alone. -/
def atMark (c : Cursor) (mark : Char) : Bool :=
  c.column = 0 && c.rest.take 3 = [mark, mark, mark] && endsWord (c.peekAt 3)

/-- Whether the line starts or ends a document. -/
def atDocumentMark (c : Cursor) : Bool := c.atMark '-' || c.atMark '.'

end Cursor

/-! ## Gaps between words -/

/-- Blanks and breaks between two words: the blanks before the first break, that break and the
further ones. -/
structure Gap where
  blanks : List Char := []
  first : List Char := []
  further : List Char := []
  broken : Bool := false
  deriving Inhabited

/-- What a gap contributes between its words. -/
def Gap.text (gap : Gap) : List Char :=
  if ¬gap.broken then gap.blanks
  else if gap.first.head? = some '\n' then if gap.further.isEmpty then [' '] else gap.further
  else gap.first ++ gap.further

/-- Reads a gap. A tab left of `indent` after a break is refused; `fuel` bounds the characters. -/
def readGap (indent : Nat) : Nat → Gap → Cursor → Option (Gap × Cursor)
  | 0, gap, c => some (gap, c)
  | fuel + 1, gap, c =>
    match c.peek with
    | none => some (gap, c)
    | some d =>
      if isBlank d then
        if gap.broken then
          if d = '\t' ∧ c.column < indent then none else readGap indent fuel gap c.skip
        else readGap indent fuel { gap with blanks := gap.blanks ++ [d] } c.skip
      else if isBreak d then
        let (kept, after) := c.takeBreak
        if gap.broken then readGap indent fuel { gap with further := gap.further ++ kept } after
        else readGap indent fuel { gap with blanks := [], first := kept, broken := true } after
      else some (gap, c)

end OpenApi.Yaml
