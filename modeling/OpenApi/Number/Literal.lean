import OpenApi.Json.Basic

/-!
# Numbers from their written parts

A literal is read as a whole part, a fraction and an exponent of ten. An integer that a signed or
unsigned 64-bit word holds stays exact; everything else is the nearest double, so `-0` is the double
`-0.0`.
-/

namespace OpenApi

/-- The value of a run of decimal digits. -/
def digitsValue (digits : List Char) : Nat :=
  digits.foldl (fun value c => 10 * value + (c.toNat - '0'.toNat)) 0

/-- Whether a signed or unsigned 64-bit word holds `value`. -/
def fitsWord (value : Int) : Bool :=
  -(Nat.pow 2 63 : Int) ≤ value ∧ value < (Nat.pow 2 64 : Int)

/-- The double nearest to `± whole.fraction · 10 ^ exponent`; `none` if it overflows. -/
def Binary64.ofParts (negative : Bool) (whole fraction : List Char) (exponent : Int) :
    Option Binary64 :=
  Binary64.ofDecimal negative (digitsValue (whole ++ fraction)) (exponent - fraction.length)

/-- The number that an integer literal denotes. -/
def Number.ofInteger? (negative : Bool) (digits : List Char) : Option Number :=
  let magnitude : Int := digitsValue digits
  let value := if negative then -magnitude else magnitude
  if fitsWord value ∧ ¬(negative ∧ magnitude = 0) then some (.integer value)
  else (Binary64.ofParts negative digits [] 0).map .real

end OpenApi
