import OpenApi.Number.Binary64

/-!
# The shortest decimal of a double

The reals that round to a given double form an interval around it, closed exactly when the
significand is even. For 1, 2, … digits the two neighbours of the value on that decimal grid are
tested against the interval in exact arithmetic; the first grid with a hit gives the digits, and of
two hits the nearer one is taken. Seventeen digits always hit.
-/

namespace OpenApi

/-- A decimal `± digits · 10 ^ exponent`. -/
structure Decimal where
  negative : Bool
  digits : Nat
  exponent : Int
  deriving DecidableEq, Repr, Inhabited

namespace Binary64

/-- The magnitude of a double and the ends of the interval that rounds to it, as numerators over one
denominator. -/
structure Neighbourhood where
  value : Nat
  low : Nat
  high : Nat
  denominator : Nat
  closed : Bool

/-- The interval that rounds to `x`: half a unit to each side, but only a quarter below a power of
two, where the doubles beneath lie twice as dense. -/
def neighbourhood (x : Binary64) : Neighbourhood :=
  let m := x.significand
  let below := if m = Nat.pow 2 52 ∧ leastExponent < x.exponent then 4 * m - 1 else 4 * m - 2
  let (up, down) :=
    if 2 ≤ x.exponent then (Nat.pow 2 (x.exponent - 2).toNat, 1)
    else (1, Nat.pow 2 (2 - x.exponent).toNat)
  ⟨4 * m * up, below * up, (4 * m + 2) * up, down, m % 2 = 0⟩

/-- Whether `num / den` lies in the interval. -/
def Neighbourhood.contains (n : Neighbourhood) (num den : Nat) : Bool :=
  let low := n.low * den
  let high := n.high * den
  let point := num * n.denominator
  (low < point ∧ point < high) ∨ (n.closed ∧ (low = point ∨ point = high))

/-- The number `k` with `10 ^ k ≤ value / denominator < 10 ^ (k + 1)`. -/
def Neighbourhood.leadingExponent (n : Neighbourhood) : Int :=
  let guess : Int :=
    ((Nat.toDigits 10 n.value).length : Int) - (Nat.toDigits 10 n.denominator).length
  let reached :=
    if 0 ≤ guess then n.denominator * Nat.pow 10 guess.toNat ≤ n.value
    else n.denominator ≤ n.value * Nat.pow 10 (-guess).toNat
  if reached then guess else guess - 1

/-- The point of the grid of step `10 ^ step` next to the value that lies in the interval, if one
does; the nearer of two. -/
def Neighbourhood.hit (n : Neighbourhood) (step : Int) : Option Nat :=
  let (num, den) :=
    if 0 ≤ step then (n.value, n.denominator * Nat.pow 10 step.toNat)
    else (n.value * Nat.pow 10 (-step).toNat, n.denominator)
  let inside (k : Nat) : Bool :=
    if 0 ≤ step then n.contains (k * Nat.pow 10 step.toNat) 1
    else n.contains k (Nat.pow 10 (-step).toNat)
  let floor := num / den
  match inside floor, inside (floor + 1) with
  | true, true => some (if 2 * (num % den) ≤ den then floor else floor + 1)
  | true, false => some floor
  | false, true => some (floor + 1)
  | false, false => none

/-- Digits and exponent without trailing zero digits; `fuel` bounds the zeros removed. -/
def stripZeros : Nat → Nat → Int → Nat × Int
  | 0, digits, exponent => (digits, exponent)
  | fuel + 1, digits, exponent =>
    if digits % 10 = 0 ∧ digits ≠ 0 then stripZeros fuel (digits / 10) (exponent + 1)
    else (digits, exponent)

/-- The decimal of fewest digits that rounds to `x`, the nearest of those. -/
def shortest (x : Binary64) : Decimal :=
  if x.significand = 0 then ⟨x.negative, 0, 0⟩
  else
    let n := x.neighbourhood
    let lead := n.leadingExponent
    let grid := (List.range 17).findSome? fun (count : Nat) =>
      (n.hit (lead - count)).map fun digits => (digits, lead - count)
    match grid with
    | some (digits, exponent) =>
      let (digits, exponent) := stripZeros 20 digits exponent
      ⟨x.negative, digits, exponent⟩
    | none => ⟨x.negative, 0, 0⟩

end Binary64

end OpenApi
