/-!
# Reading UTF-8

`decodeLossy` reads bytes as text and never fails: the longest start of a well-formed sequence that
breaks off, or else a single byte, stands as one replacement character. The ranges of the second
byte are those of the well-formed sequences: no overlong forms, no surrogates, nothing above
U+10FFFF.
-/

namespace OpenApi.Text

/-- Stands for bytes that are not text. -/
def replacement : Char := '\ufffd'

/-- A byte that continues a sequence. -/
def isContinuation (b : UInt8) : Bool := 0x80 ≤ b ∧ b ≤ 0xBF

/-- The second bytes that may follow the first byte of a three-byte sequence. -/
def secondOfThree (first second : UInt8) : Bool :=
  if first = 0xE0 then 0xA0 ≤ second ∧ second ≤ 0xBF
  else if first = 0xED then 0x80 ≤ second ∧ second ≤ 0x9F
  else isContinuation second

/-- The second bytes that may follow the first byte of a four-byte sequence. -/
def secondOfFour (first second : UInt8) : Bool :=
  if first = 0xF0 then 0x90 ≤ second ∧ second ≤ 0xBF
  else if first = 0xF4 then 0x80 ≤ second ∧ second ≤ 0x8F
  else isContinuation second

/-- The character of a number, made of the payload of a lead byte and of the continuation bytes. -/
def assemble (lead : Nat) (continuations : List UInt8) : Char :=
  Char.ofNat (continuations.foldl (fun value b => value * 64 + (b.toNat - 0x80)) lead)

/-- The text that bytes denote, with `replacement` in the place of what is malformed. -/
def decodeLossy : List UInt8 → List Char
  | [] => []
  | a :: rest =>
    if a < 0x80 then Char.ofNat a.toNat :: decodeLossy rest
    else if 0xC2 ≤ a ∧ a ≤ 0xDF then
      match rest with
      | b :: rest =>
        if isContinuation b then assemble (a.toNat - 0xC0) [b] :: decodeLossy rest
        else replacement :: decodeLossy (b :: rest)
      | [] => [replacement]
    else if 0xE0 ≤ a ∧ a ≤ 0xEF then
      match rest with
      | b :: c :: rest =>
        if secondOfThree a b then
          if isContinuation c then assemble (a.toNat - 0xE0) [b, c] :: decodeLossy rest
          else replacement :: decodeLossy (c :: rest)
        else replacement :: decodeLossy (b :: c :: rest)
      | [b] => if secondOfThree a b then [replacement] else replacement :: decodeLossy [b]
      | [] => [replacement]
    else if 0xF0 ≤ a ∧ a ≤ 0xF4 then
      match rest with
      | b :: c :: d :: rest =>
        if secondOfFour a b then
          if isContinuation c then
            if isContinuation d then assemble (a.toNat - 0xF0) [b, c, d] :: decodeLossy rest
            else replacement :: decodeLossy (d :: rest)
          else replacement :: decodeLossy (c :: d :: rest)
        else replacement :: decodeLossy (b :: c :: d :: rest)
      | [b, c] =>
        if secondOfFour a b then
          if isContinuation c then [replacement] else replacement :: decodeLossy [c]
        else replacement :: decodeLossy [b, c]
      | [b] => if secondOfFour a b then [replacement] else replacement :: decodeLossy [b]
      | [] => [replacement]
    else replacement :: decodeLossy rest

end OpenApi.Text
