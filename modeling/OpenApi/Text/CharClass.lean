import OpenApi.Text.WordTable

/-!
# Character classes

The classes of characters that words, patterns and blanks are told by: ASCII by comparison,
everything else by the tables.
-/

namespace OpenApi.Text

/-- Whether a code point lies in a range. -/
def inRange (code : Nat) (range : Nat × Nat) : Bool := range.1 ≤ code ∧ code ≤ range.2

/-- Whether a character is a letter or a number. -/
def isAlphanumeric (c : Char) : Bool :=
  if c.toNat < 0x80 then c.isAlphanum else alphanumericRanges.any (inRange c.toNat)

/-- Whether a character belongs to words: letters, marks, decimal digits, connectors and joiners. -/
def isWordChar (c : Char) : Bool :=
  if c.toNat < 0x80 then c.isAlphanum || c = '_'
  else
    (alphanumericRanges.any (inRange c.toNat) && !otherNumberRanges.any (inRange c.toNat))
      || wordMarkRanges.any (inRange c.toNat)

/-- Whether a character is a decimal digit. -/
def isDecimal (c : Char) : Bool :=
  if c.toNat < 0x80 then c.isDigit else decimalRanges.any (inRange c.toNat)

/-- Whether a character is a number of any kind. -/
def isNumeric (c : Char) : Bool :=
  isDecimal c || (0x80 ≤ c.toNat && otherNumberRanges.any (inRange c.toNat))

/-- Whether a character is white space. -/
def isBlank (c : Char) : Bool :=
  if c.toNat < 0x80 then c = ' ' || (0x09 ≤ c.toNat && c.toNat ≤ 0x0D)
  else blankRanges.any (inRange c.toNat)

/-- A text without the white space around it. -/
def trim (text : List Char) : List Char :=
  ((text.dropWhile isBlank).reverse.dropWhile isBlank).reverse

end OpenApi.Text
