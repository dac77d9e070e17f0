import OpenApi.Number.Literal

/-!
# Reading JSON text

A recursive-descent reader on characters. Each reader takes the rest of the text and returns what
it read with what follows; `fuel` bounds nesting and repetition by the length of the text, of which
every step consumes at least one character.
-/

namespace OpenApi.Json.Parser

/-- What follows the blanks of JSON. -/
def skipBlanks (text : List Char) : List Char :=
  text.dropWhile fun c => c = ' ' ∨ c = '\t' ∨ c = '\n' ∨ c = '\r'

/-- The value of a hexadecimal digit. -/
def hexValue? (c : Char) : Option Nat :=
  if '0' ≤ c ∧ c ≤ '9' then some (c.toNat - '0'.toNat)
  else if 'a' ≤ c ∧ c ≤ 'f' then some (c.toNat - 'a'.toNat + 10)
  else if 'A' ≤ c ∧ c ≤ 'F' then some (c.toNat - 'A'.toNat + 10)
  else none

/-- Four hexadecimal digits. -/
def fourDigits : List Char → Option (Nat × List Char)
  | a :: b :: c :: d :: rest => do
    let a ← hexValue? a
    let b ← hexValue? b
    let c ← hexValue? c
    let d ← hexValue? d
    some (((a * 16 + b) * 16 + c) * 16 + d, rest)
  | _ => none

/-- The character after `\u`, of which two halves outside the basic plane make one. -/
def unicodeEscape (text : List Char) : Option (Char × List Char) := do
  let (unit, rest) ← fourDigits text
  if 0xD800 ≤ unit ∧ unit < 0xDC00 then
    match rest with
    | '\\' :: 'u' :: rest =>
      let (low, rest) ← fourDigits rest
      if 0xDC00 ≤ low ∧ low < 0xE000 then
        some (Char.ofNat (0x10000 + (unit - 0xD800) * 0x400 + (low - 0xDC00)), rest)
      else none
    | _ => none
  else if 0xDC00 ≤ unit ∧ unit < 0xE000 then none
  else some (Char.ofNat unit, rest)

/-- The character that a one-letter escape stands for. -/
def shortEscape? (c : Char) : Option Char :=
  if c = 'n' then some '\n'
  else if c = 't' then some '\t'
  else if c = 'r' then some '\r'
  else if c = 'b' then some '\x08'
  else if c = 'f' then some '\x0c'
  else if c = '\x22' ∨ c = '\\' ∨ c = '/' then some c
  else none

/-- The characters of a string up to its closing quote; `read` holds those before, in reverse. -/
def stringBody (read : List Char) : Nat → List Char → Option (String × List Char)
  | 0, _ => none
  | fuel + 1, text =>
    match text with
    | [] => none
    | '\x22' :: rest => some (String.ofList read.reverse, rest)
    | '\\' :: 'u' :: rest => do
      let (c, rest) ← unicodeEscape rest
      stringBody (c :: read) fuel rest
    | '\\' :: c :: rest => do
      let c ← shortEscape? c
      stringBody (c :: read) fuel rest
    | c :: rest => if c.toNat < 0x20 then none else stringBody (c :: read) fuel rest

/-- A run of decimal digits and what follows. -/
def digits (text : List Char) : List Char × List Char := text.span Char.isDigit

/-- A number, with its sign already known. -/
def number (negative : Bool) (text : List Char) : Option (Number × List Char) := do
  let (whole, rest) := digits text
  if whole.isEmpty ∨ (whole.head? = some '0' ∧ whole ≠ ['0']) then none
  let (fraction, rest) ←
    match rest with
    | '.' :: after =>
      let (fraction, rest) := digits after
      if fraction.isEmpty then none else some (some fraction, rest)
    | _ => some (none, rest)
  let (exponent, rest) ←
    match rest with
    | e :: after =>
      if e = 'e' ∨ e = 'E' then
        let (down, after) :=
          match after with
          | '-' :: after => (true, after)
          | '+' :: after => (false, after)
          | _ => (false, after)
        let (figures, rest) := digits after
        if figures.isEmpty then none
        else
          let size : Int := digitsValue figures
          some (some (if down then -size else size), rest)
      else some (none, rest)
    | [] => some (none, rest)
  match fraction, exponent with
  | none, none => (Number.ofInteger? negative whole).map (·, rest)
  | _, _ =>
    (Binary64.ofParts negative whole (fraction.getD []) (exponent.getD 0)).map (.real ·, rest)

mutual

/-- A value, blanks before it skipped. -/
def value : Nat → List Char → Option (Json × List Char)
  | 0, _ => none
  | fuel + 1, text =>
    match skipBlanks text with
    | 'n' :: 'u' :: 'l' :: 'l' :: rest => some (.null, rest)
    | 't' :: 'r' :: 'u' :: 'e' :: rest => some (.bool true, rest)
    | 'f' :: 'a' :: 'l' :: 's' :: 'e' :: rest => some (.bool false, rest)
    | '\x22' :: rest => (stringBody [] (fuel + 1) rest).map fun (text, rest) => (.string text, rest)
    | '[' :: rest =>
      match skipBlanks rest with
      | ']' :: rest => some (.array [], rest)
      | rest => (items [] fuel rest).map fun (items, rest) => (.array items, rest)
    | '{' :: rest =>
      match skipBlanks rest with
      | '}' :: rest => some (.object [], rest)
      | rest =>
        (members [] fuel rest).map fun (pairs, rest) => (.object (Members.ofPairs pairs), rest)
    | '-' :: rest => (number true rest).map fun (n, rest) => (.number n, rest)
    | rest => (number false rest).map fun (n, rest) => (.number n, rest)

/-- The items of an array up to its bracket; `read` holds those before, in reverse. -/
def items (read : List Json) : Nat → List Char → Option (List Json × List Char)
  | 0, _ => none
  | fuel + 1, text => do
    let (item, rest) ← value fuel text
    match skipBlanks rest with
    | ',' :: rest => items (item :: read) fuel rest
    | ']' :: rest => some ((item :: read).reverse, rest)
    | _ => none

/-- The members of an object up to its brace; `read` holds those before, in reverse. -/
def members (read : List (String × Json)) :
    Nat → List Char → Option (List (String × Json) × List Char)
  | 0, _ => none
  | fuel + 1, text =>
    match skipBlanks text with
    | '\x22' :: rest => do
      let (name, rest) ← stringBody [] (fuel + 1) rest
      match skipBlanks rest with
      | ':' :: rest =>
        let (item, rest) ← value fuel rest
        match skipBlanks rest with
        | ',' :: rest => members ((name, item) :: read) fuel rest
        | '}' :: rest => some (((name, item) :: read).reverse, rest)
        | _ => none
      | _ => none
    | _ => none

end

end Parser

/-- The value that a text denotes, if it is one JSON value with blanks around it. -/
def parse? (text : String) : Option Json :=
  let characters := text.toList
  match Parser.value (2 * characters.length + 2) characters with
  | some (value, rest) => if (Parser.skipBlanks rest).isEmpty then some value else none
  | none => none

end OpenApi.Json
