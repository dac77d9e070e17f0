import OpenApi.Text.Case
import OpenApi.Url.Basic
import OpenApi.Url.Punycode

/-!
# Hosts

The host of a special URL is a domain name, an IPv4 address or a bracketed IPv6 address, and has one
written form for each address or name; the host of any other URL is kept as it stands, but for
escapes.
-/

namespace OpenApi.Url

/-! ## IPv4 -/

/-- The value of a digit below a radix. -/
def digitBelow? (radix : Nat) (c : Char) : Option Nat :=
  (Text.hexValue? c).bind fun value => if value < radix then some value else none

/-- The number that digits denote in a radix. -/
def numeral? (radix : Nat) (digits : List Char) : Option Nat :=
  digits.foldlM (fun value c => (digitBelow? radix c).map (value * radix + ·)) 0

/-- A part of an IPv4 address: decimal, octal after `0`, hexadecimal after `0x`. -/
def ipv4Part? : List Char → Option Nat
  | [] => none
  | '0' :: 'x' :: digits => numeral? 16 digits
  | '0' :: 'X' :: digits => numeral? 16 digits
  | '0' :: c :: digits => numeral? 8 (c :: digits)
  | digits => numeral? 10 digits

/-- Whether the last part of a domain, an empty one at its end aside, reads as a number. -/
def endsInNumber (domain : List Char) : Bool :=
  let parts := (Text.splitAt '.' domain).reverse
  let last :=
    match parts with
    | [] :: last :: _ => last
    | [] :: [] => []
    | last :: _ => last
    | [] => []
  (!last.isEmpty && last.all Char.isDigit) || (ipv4Part? last).isSome

/-- The address that the parts of a domain denote; the last part fills all the bytes that the others
leave. -/
def ipv4Address (domain : List Char) : Except Fault Nat :=
  let parts := Text.splitAt '.' domain
  let parts := if parts.getLast? = some [] then parts.dropLast else parts
  match parts.mapM ipv4Part? with
  | some numbers =>
    let leading := numbers.dropLast
    let last := numbers.getLast?.getD 0
    if 4 < numbers.length ∨ numbers.isEmpty then .error .ipv4
    else if Nat.pow 256 (4 - leading.length) ≤ last ∨ leading.any (255 < ·) then .error .ipv4
    else .ok (leading.zipIdx.foldl (fun address (n, i) => address + n * Nat.pow 256 (3 - i)) last)
  | none => .error .ipv4

/-- The written form of an IPv4 address. -/
def ipv4Text (address : Nat) : String :=
  ".".intercalate ([3, 2, 1, 0].map fun i => toString (address / Nat.pow 256 i % 256))

/-! ## IPv6 -/

/-- One group: up to four hexadecimal digits. -/
def ipv6Group? (digits : List Char) : Option Nat :=
  if digits.isEmpty ∨ 4 < digits.length then none else numeral? 16 digits

/-- A decimal byte without leading zeros. -/
def plainByte? (digits : List Char) : Option Nat :=
  if digits.isEmpty ∨ ¬digits.all Char.isDigit
      ∨ (1 < digits.length ∧ digits.head? = some '0') then none
  else (numeral? 10 digits).bind fun value => if value < 256 then some value else none

/-- The groups between colons; the last may be an IPv4 address, which makes two. -/
def ipv6Groups? : List (List Char) → Option (List Nat)
  | [] => some []
  | [last] =>
    if last.contains '.' then
      match (Text.splitAt '.' last).mapM plainByte? with
      | some [a, b, c, d] => some [a * 256 + b, c * 256 + d]
      | _ => none
    else (ipv6Group? last).map ([·])
  | group :: rest => do
    let group ← ipv6Group? group
    let rest ← ipv6Groups? rest
    some (group :: rest)

/-- The texts before and after the first double colon. -/
def cutDoubleColon? : List Char → Option (List Char × List Char)
  | [] => none
  | ':' :: ':' :: rest => some ([], rest)
  | c :: rest => (cutDoubleColon? rest).map fun (before, after) => (c :: before, after)

/-- The groups of a text that may be empty. -/
def ipv6Half? (text : List Char) : Option (List Nat) :=
  if text.isEmpty then some [] else ipv6Groups? (Text.splitAt ':' text)

/-- The eight groups of an IPv6 address; a double colon stands for one zero group or more. -/
def ipv6Address (text : List Char) : Except Fault (List Nat) :=
  match cutDoubleColon? text with
  | none =>
    match ipv6Groups? (Text.splitAt ':' text) with
    | some groups => if groups.length = 8 then .ok groups else .error .ipv6
    | none => .error .ipv6
  | some (before, after) =>
    match ipv6Half? before, ipv6Half? after with
    | some left, some right =>
      if before.contains '.' ∨ 7 < left.length + right.length then .error .ipv6
      else .ok (left ++ List.replicate (8 - left.length - right.length) 0 ++ right)
    | _, _ => .error .ipv6

/-- How many zero groups a list starts with. -/
def leadingZeros (groups : List Nat) : Nat := (groups.takeWhile (· = 0)).length

/-- Start and length of the first longest run of at least two zero groups. -/
def zeroRun? (groups : List Nat) : Option (Nat × Nat) :=
  (List.range groups.length).foldl
    (fun best start =>
      let length := leadingZeros (groups.drop start)
      match best with
      | none => if 2 ≤ length then some (start, length) else none
      | some (first, longest) =>
        if longest < length then some (start, length) else some (first, longest))
    none

/-- The written form of an IPv6 address. -/
def ipv6Text (groups : List Nat) : String :=
  let hex (groups : List Nat) : String :=
    ":".intercalate (groups.map fun n => String.ofList (Nat.toDigits 16 n))
  match zeroRun? groups with
  | some (start, length) => hex (groups.take start) ++ "::" ++ hex (groups.drop (start + length))
  | none => hex groups

/-! ## Names -/

/-- What no domain name contains. -/
def forbiddenInDomain (c : Char) : Bool :=
  isControl c || c = ' ' || c = '#' || c = '/' || c = ':' || c = '<' || c = '>' || c = '?'
    || c = '@' || c = '[' || c = '\\' || c = ']' || c = '^' || c = '|' || c = '%'

/-- What no host of a URL that is not special contains. -/
def forbiddenInHost (c : Char) : Bool :=
  c.toNat = 0 || c = '\t' || c = '\n' || c = '\r' || c = ' ' || c = '#' || c = '/' || c = ':'
    || c = '<' || c = '>' || c = '?' || c = '@' || c = '[' || c = '\\' || c = ']' || c = '^'
    || c = '|'

/-- The ASCII form of a label. -/
def asciiLabel (label : List Char) : List Char :=
  if label.all (·.toNat < 0x80) then label else "xn--".toList ++ Punycode.encode label

/-- What a domain name is written without: soft hyphens, and marks and selectors that are not shown. -/
def ignoredInDomain (c : Char) : Bool :=
  c = '\u00ad' || c = '\u034f' || c = '\u200b' || c = '\u2060' || c = '\u2064' || c = '\ufeff'
    || '\ufe00' ≤ c && c ≤ '\ufe0f'

/-- The ASCII character that a fullwidth form or an ideographic stop stands for. -/
def narrow (c : Char) : Char :=
  if '！' ≤ c ∧ c ≤ '～' then Char.ofNat (c.toNat - 0xfee0)
  else if c = '。' ∨ c = '｡' then '.'
  else c

/-- The ASCII form of a domain name, in lower case. -/
def asciiDomain (domain : List Char) : Except Fault (List Char) :=
  let mapped := (domain.filter (!ignoredInDomain ·)).flatMap fun c => Text.toLower (narrow c)
  let labels := (Text.splitAt '.' mapped).map asciiLabel
  let ascii := ['.'].intercalate labels
  if ascii.any forbiddenInDomain || ascii.contains Text.replacement then .error .domainName
  else .ok ascii

/-- The text inside brackets. -/
def bracketed (text : List Char) : Except Fault String :=
  if text.getLast? = some ']' then
    (ipv6Address text.dropLast).map fun groups => "[" ++ ipv6Text groups ++ "]"
  else .error .ipv6

/-- The host of a special URL. -/
def specialHost (text : List Char) : Except Fault String :=
  match text with
  | '[' :: rest => bracketed rest
  | _ => do
    let domain ← asciiDomain (Text.percentDecode text)
    if domain.isEmpty then throw .emptyHost
    if endsInNumber domain then return ipv4Text (← ipv4Address domain)
    return String.ofList domain

/-- The host of any other URL. -/
def otherHost (text : List Char) : Except Fault String :=
  match text with
  | '[' :: rest => bracketed rest
  | _ =>
    if text.any forbiddenInHost then .error .domainCharacter
    else .ok (encode isControl text)

end OpenApi.Url
