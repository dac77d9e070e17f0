/-!
# Punycode

The ASCII form of a label with other characters: the ASCII characters of the label, a hyphen if
there are any, and then, in the order of the remaining code points, how far each insertion lies
behind the one before, as a number of variable base whose thresholds adapt to the sizes seen.
-/

namespace OpenApi.Url.Punycode

/-- The digit of base 36: letters, then figures. -/
def digit (n : Nat) : Char :=
  if n < 26 then Char.ofNat ('a'.toNat + n) else Char.ofNat ('0'.toNat + (n - 26))

/-- Halves a delta until it fits the bias; `fuel` bounds the divisions. -/
def reduceDelta : Nat → Nat → Nat → Nat
  | 0, _, k => k
  | fuel + 1, delta, k =>
    if 455 < delta then reduceDelta fuel (delta / 35) (k + 36) else k + 36 * delta / (delta + 38)

/-- The bias after a delta that led to `count` characters. -/
def adapt (delta count : Nat) (first : Bool) : Nat :=
  let delta := if first then delta / 700 else delta / 2
  reduceDelta 32 (delta + delta / count) 0

/-- Writes a delta; `fuel` bounds its digits. -/
def writeDelta (bias : Nat) : Nat → Nat → Nat → List Char
  | 0, _, _ => []
  | fuel + 1, k, q =>
    let threshold := if k ≤ bias then 1 else if bias + 26 ≤ k then 26 else k - bias
    if q < threshold then [digit q]
    else
      digit (threshold + (q - threshold) % (36 - threshold))
        :: writeDelta bias fuel (k + 36) ((q - threshold) / (36 - threshold))

/-- What is carried from one insertion to the next. -/
structure State where
  delta : Nat
  bias : Nat
  handled : Nat
  output : List Char

/-- Passes over the label once and inserts the code point `n` wherever it stands. -/
def insertAll (n basic : Nat) (label : List Nat) (state : State) : State :=
  label.foldl
    (fun state c =>
      if c < n then { state with delta := state.delta + 1 }
      else if c = n then
        { delta := 0
          bias := adapt state.delta (state.handled + 1) (state.handled = basic)
          handled := state.handled + 1
          output := state.output ++ writeDelta state.bias 64 36 state.delta }
      else state)
    state

/-- Inserts the code points from `n` on, least first; `fuel` bounds how many differ. -/
def insertFrom (basic : Nat) (label : List Nat) : Nat → Nat → State → State
  | 0, _, state => state
  | fuel + 1, n, state =>
    match (label.filter (n ≤ ·)).min? with
    | none => state
    | some least =>
      let state := { state with delta := state.delta + (least - n) * (state.handled + 1) }
      let state := insertAll least basic label state
      insertFrom basic label fuel (least + 1) { state with delta := state.delta + 1 }

/-- The ASCII form of a label, without the mark that announces it. -/
def encode (label : List Char) : List Char :=
  let ascii := label.filter (·.toNat < 0x80)
  let start := if ascii.isEmpty then [] else ascii ++ ['-']
  let state : State := ⟨0, 72, ascii.length, start⟩
  (insertFrom ascii.length (label.map Char.toNat) label.length 0x80 state).output

end OpenApi.Url.Punycode
