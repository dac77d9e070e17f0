import OpenApi.Json.Basic
import OpenApi.Number.Literal
import OpenApi.Yaml.Scalar

/-!
# What scalars denote

A plain scalar without a tag is a null, a Boolean, an integer, a float or else a string. Integers
are decimal, hexadecimal, octal or binary; a decimal with a leading zero is no number. An integer
that 64 bits do not hold but 128 bits do is refused, one beyond is read as a float. Infinities and
`.nan` have no place in a document and become null.
-/

namespace OpenApi.Yaml

/-- Whether a scalar is written as a null. -/
def isNullWord (text : String) : Bool := ["~", "null", "Null", "NULL"].contains text

/-- The Boolean that a scalar is written as. -/
def boolWord? (text : String) : Option Bool :=
  if ["true", "True", "TRUE"].contains text then some true
  else if ["false", "False", "FALSE"].contains text then some false
  else none

/-! ## Integers -/

/-- The value of digits in a radix of at most sixteen; there has to be one. -/
def radixValue? (radix : Nat) (digits : List Char) : Option Nat := do
  if digits.isEmpty then none
  let values ← digits.mapM hexValue?
  if values.all (· < radix) then some (values.foldl (fun value d => value * radix + d) 0) else none

/-- Whether the text starts with a minus, and what follows the sign. -/
def splitSign : List Char → Bool × List Char
  | '-' :: rest => (true, rest)
  | '+' :: rest => (false, rest)
  | text => (false, text)

/-- Whether digits start with a zero that is not the only one. -/
def isZeroPadded : List Char → Bool
  | '0' :: d :: rest => (d :: rest).all Char.isDigit
  | _ => false

/-- The integer that a scalar is written as. -/
def integer? (text : List Char) : Option Int :=
  let (negative, body) := splitSign text
  let magnitude :=
    match body with
    | '0' :: 'x' :: digits => radixValue? 16 digits
    | '0' :: 'o' :: digits => radixValue? 8 digits
    | '0' :: 'b' :: digits => radixValue? 2 digits
    | digits => if isZeroPadded digits then none else radixValue? 10 digits
  magnitude.map fun (magnitude : Nat) => if negative then -(magnitude : Int) else magnitude

/-- Whether a signed or unsigned word of 128 bits holds a value. -/
def fitsDoubleWord (value : Int) : Bool :=
  -(Nat.pow 2 127 : Int) ≤ value ∧ value < (Nat.pow 2 128 : Int)

/-! ## Floats -/

/-- Whether a scalar is written as an infinity or as no number. -/
def isNonFinite (text : String) : Bool :=
  [".inf", ".Inf", ".INF", "+.inf", "+.Inf", "+.INF", "-.inf", "-.Inf", "-.INF", ".nan", ".NaN",
    ".NAN"].contains text

/-- The exponent of ten at the end of a float. -/
def exponent? : List Char → Option Int
  | [] => some 0
  | e :: rest =>
    let (negative, digits) := splitSign rest
    if (e = 'e' ∨ e = 'E') ∧ ¬digits.isEmpty ∧ digits.all Char.isDigit then
      let size : Int := digitsValue digits
      some (if negative then -size else size)
    else none

/-- The finite double that a scalar is written as: digits with at most one point among, before or
after them, and an exponent. -/
def float? (text : List Char) : Option Binary64 := do
  let (negative, body) := splitSign text
  let (whole, rest) := body.span Char.isDigit
  let (fraction, rest) :=
    match rest with
    | '.' :: rest => rest.span Char.isDigit
    | rest => ([], rest)
  if whole.isEmpty ∧ fraction.isEmpty then none
  Binary64.ofParts negative whole fraction (← exponent? rest)

/-- The value of a scalar that is written as a float. -/
def floatValue? (text : String) : Option Json :=
  if isNonFinite text then some .null
  else (float? text.toList).map fun value => .number (.real value)

/-! ## Scalars -/

/-- The value of a plain scalar without a tag. -/
def plainValue? (text : String) : Option Json :=
  if text.isEmpty ∨ isNullWord text then some .null
  else
    match boolWord? text with
    | some value => some (.bool value)
    | none =>
      let characters := text.toList
      let float :=
        if isZeroPadded (splitSign characters).2 then .string text
        else (floatValue? text).getD (.string text)
      match integer? characters with
      | some value =>
        if fitsWord value then some (.number (.integer value))
        else if fitsDoubleWord value then none
        else some float
      | none => some float

/-- Whether a tag is one of a document's own kind. -/
def isLocalTag (tag : Option String) : Bool := (tag.map fun tag => tag.startsWith "!").getD false

/-- The tag of a type that every document has. -/
def coreTag (name : String) : String := "tag:yaml.org,2002:" ++ name

/-- The value of a scalar. The tags of Booleans, numbers and null demand that it is written as one,
local tags are refused, and any other tag makes a string, as quoting does. -/
def scalarValue? (tag : Option String) (plain : Bool) (text : String) : Option Json :=
  match tag with
  | none => if plain then plainValue? text else some (.string text)
  | some tag =>
    if isLocalTag tag then none
    else if tag = coreTag "bool" then (boolWord? text).map .bool
    else if tag = coreTag "int" then
      (integer? text.toList).bind fun value =>
        if fitsWord value then some (.number (.integer value)) else none
    else if tag = coreTag "float" then floatValue? text
    else if tag = coreTag "null" then if isNullWord text then some .null else none
    else some (.string text)

end OpenApi.Yaml
