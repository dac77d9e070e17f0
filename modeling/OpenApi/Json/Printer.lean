import OpenApi.Json.Basic
import OpenApi.Number.Shortest

/-!
# Printing JSON

Two layouts of one grammar: `Json.compact` writes no blanks, `Json.pretty` puts every item and
member on a line of its own, two blanks deeper than its container. Empty containers are a bare pair
of brackets in both.
-/

namespace OpenApi

namespace Decimal

/-- Writes a decimal as JSON shows doubles: positional, with a fraction of at least one digit, when
the leading digit stands between the fifth place after the point and the sixteenth before it;
otherwise one digit, the others behind a point, and a signed exponent. -/
def jsonText (d : Decimal) : String :=
  let sign := if d.negative then "-" else ""
  let figures := Nat.toDigits 10 d.digits
  let count := figures.length
  let lead : Int := d.exponent + (count : Int) - 1
  let body :=
    if d.digits = 0 then "0.0"
    else if -5 ≤ lead ∧ lead ≤ 15 then
      if 0 ≤ d.exponent then
        String.ofList (figures ++ List.replicate d.exponent.toNat '0') ++ ".0"
      else if 0 ≤ lead then
        let whole := (lead + 1).toNat
        String.ofList (figures.take whole) ++ "." ++ String.ofList (figures.drop whole)
      else
        "0." ++ String.ofList (List.replicate (-lead - 1).toNat '0' ++ figures)
    else
      let fraction := if count = 1 then "" else "." ++ String.ofList (figures.drop 1)
      let mark := if 0 ≤ lead then "e+" else "e-"
      String.ofList (figures.take 1) ++ fraction ++ mark ++ toString lead.natAbs
  sign ++ body

end Decimal

/-- The text of a number. -/
def Number.text : Number → String
  | .integer value => toString value
  | .real value => value.shortest.jsonText

namespace Json

/-- A lower-case hexadecimal digit. -/
def hexDigit (n : Nat) : Char := Nat.digitChar n

/-- The written form of a character inside a string. -/
def escape (c : Char) : List Char :=
  if c = '\x22' then ['\\', '\x22']
  else if c = '\\' then ['\\', '\\']
  else if c = '\x08' then ['\\', 'b']
  else if c = '\x0c' then ['\\', 'f']
  else if c = '\n' then ['\\', 'n']
  else if c = '\r' then ['\\', 'r']
  else if c = '\t' then ['\\', 't']
  else if c.toNat < 0x20 then
    ['\\', 'u', '0', '0', hexDigit (c.toNat / 16), hexDigit (c.toNat % 16)]
  else [c]

/-- A string with its quotes. -/
def quote (text : String) : String :=
  String.ofList ('\x22' :: (text.toList.flatMap escape ++ ['\x22']))

mutual

/-- The text without blanks. -/
def compact : Json → String
  | null => "null"
  | bool true => "true"
  | bool false => "false"
  | number n => n.text
  | string text => quote text
  | array items => "[" ++ ",".intercalate (compactItems items) ++ "]"
  | object members => "\x7b" ++ ",".intercalate (compactMembers members) ++ "\x7d"

/-- The texts of a list of values. -/
def compactItems : List Json → List String
  | [] => []
  | item :: rest => compact item :: compactItems rest

/-- The texts of a list of members. -/
def compactMembers : List (String × Json) → List String
  | [] => []
  | (name, value) :: rest => (quote name ++ ":" ++ compact value) :: compactMembers rest

end

/-- The line break and indentation at a depth. -/
def newline (depth : Nat) : String := "\n" ++ String.ofList (List.replicate (2 * depth) ' ')

mutual

/-- The indented text of a value at a depth. -/
def prettyAt (depth : Nat) : Json → String
  | array [] => "[]"
  | array (item :: rest) =>
    "[" ++ newline (depth + 1)
      ++ ("," ++ newline (depth + 1)).intercalate
          (prettyAt (depth + 1) item :: prettyItems (depth + 1) rest)
      ++ newline depth ++ "]"
  | object [] => "\x7b\x7d"
  | object ((name, value) :: rest) =>
    "\x7b" ++ newline (depth + 1)
      ++ ("," ++ newline (depth + 1)).intercalate
          ((quote name ++ ": " ++ prettyAt (depth + 1) value) :: prettyMembers (depth + 1) rest)
      ++ newline depth ++ "\x7d"
  | null => "null"
  | bool true => "true"
  | bool false => "false"
  | number n => n.text
  | string text => quote text

/-- The indented texts of a list of values. -/
def prettyItems (depth : Nat) : List Json → List String
  | [] => []
  | item :: rest => prettyAt depth item :: prettyItems depth rest

/-- The indented texts of a list of members. -/
def prettyMembers (depth : Nat) : List (String × Json) → List String
  | [] => []
  | (name, value) :: rest =>
    (quote name ++ ": " ++ prettyAt depth value) :: prettyMembers depth rest

end

/-- The indented text. -/
def pretty (value : Json) : String := prettyAt 0 value

end Json

end OpenApi
