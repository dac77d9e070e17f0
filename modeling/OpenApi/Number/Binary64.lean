/-!
# Finite binary64 numbers

A double is kept as the exact dyadic number it denotes, `± significand · 2 ^ exponent`, in the one
normal form that IEEE 754 gives each value: the significand has 53 bits unless the exponent is the
least one. Reading a decimal is then exact natural-number arithmetic followed by one rounding, and
equality of doubles is equality of structures (with `0.0` and `-0.0` apart).
-/

namespace OpenApi

/-- A finite double, `± significand · 2 ^ exponent` in normal form. -/
structure Binary64 where
  negative : Bool
  significand : Nat
  exponent : Int
  deriving DecidableEq, Repr, Inhabited

namespace Binary64

/-- The exponent of the subnormal numbers. -/
def leastExponent : Int := -1074

/-- The exponent of the largest finite numbers. -/
def greatestExponent : Int := 971

/-- `num / den` rounded to the nearest integer, a tie to the even one. -/
def roundHalfEven (num den : Nat) : Nat :=
  let quotient := num / den
  let remainder := num % den
  if 2 * remainder < den then quotient
  else if den < 2 * remainder then quotient + 1
  else quotient + quotient % 2

/-- `num / (den · 2 ^ shift)` as a fraction. -/
def scaled (num den : Nat) (shift : Int) : Nat × Nat :=
  if 0 ≤ shift then (num, den * Nat.pow 2 shift.toNat) else (num * Nat.pow 2 (-shift).toNat, den)

/-- The exponent at which a nonzero `num / den` has a 53-bit significand, or the least exponent if
that one is lower. -/
def exponentFor (num den : Nat) : Int :=
  let guess : Int := (num.log2 : Int) - (den.log2 : Int) - 52
  let (n, d) := scaled num den guess
  max leastExponent (if n < d * Nat.pow 2 52 then guess - 1 else guess)

/-- The double nearest to `± num / den`, a tie to the even significand; `none` if that number
overflows. -/
def ofFraction (negative : Bool) (num den : Nat) : Option Binary64 :=
  if num = 0 then some ⟨negative, 0, leastExponent⟩
  else
    let exponent := exponentFor num den
    let (n, d) := scaled num den exponent
    let significand := roundHalfEven n d
    let (significand, exponent) :=
      if significand = Nat.pow 2 53 then (Nat.pow 2 52, exponent + 1) else (significand, exponent)
    if greatestExponent < exponent then none else some ⟨negative, significand, exponent⟩

/-- The double nearest to `± digits · 10 ^ exponent`; `none` if it overflows. A decimal above every
finite double or below half the least one is settled by its number of digits, so that no large power
of ten is formed. -/
def ofDecimal (negative : Bool) (digits : Nat) (exponent : Int) : Option Binary64 :=
  let magnitude : Int := exponent + (Nat.toDigits 10 digits).length
  if digits = 0 ∨ magnitude < -330 then some ⟨negative, 0, leastExponent⟩
  else if 330 < magnitude then none
  else if 0 ≤ exponent then ofFraction negative (digits * Nat.pow 10 exponent.toNat) 1
  else ofFraction negative digits (Nat.pow 10 (-exponent).toNat)

end Binary64

end OpenApi
