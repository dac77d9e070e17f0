import OpenApi.Text.CaseTable

/-!
# Letter case

Full case mapping of single characters: ASCII by arithmetic, everything else by the tables. A
mapping may give several characters, as `ß` gives `SS`.
-/

namespace OpenApi.Text

/-- Whether a code point lies on a run. -/
def onRun (code : Nat) (run : Nat × Nat × Nat) : Bool :=
  let (first, last, step) := run
  first ≤ code ∧ code ≤ last ∧ (code - first) % step = 0

/-- Whether a character has the property Uppercase. -/
def isUpper (c : Char) : Bool :=
  if c.toNat < 0x80 then c.isUpper else upperRuns.any (onRun c.toNat)

/-- Whether a character has the property Lowercase. -/
def isLower (c : Char) : Bool :=
  if c.toNat < 0x80 then c.isLower else lowerRuns.any (onRun c.toNat)

/-- The characters that a table maps a character to; a character that no table lists maps to
itself. -/
def mapCase (sequences : List (Nat × List Nat)) (images : List (Nat × Nat × Nat × Nat)) (c : Char) :
    List Char :=
  match sequences.lookup c.toNat with
  | some codes => codes.map Char.ofNat
  | none =>
    match images.find? fun (first, last, step, _) => onRun c.toNat (first, last, step) with
    | some (first, _, _, image) => [Char.ofNat (image + (c.toNat - first))]
    | none => [c]

/-- The upper case of a character. -/
def toUpper (c : Char) : List Char :=
  if c.toNat < 0x80 then [c.toUpper] else mapCase upperSequences upperImages c

/-- The lower case of a character. -/
def toLower (c : Char) : List Char :=
  if c.toNat < 0x80 then [c.toLower] else mapCase lowerSequences lowerImages c

/-- A character and those that differ from it only in case. -/
def caseVariants (c : Char) : List Char :=
  match caseOrbits.find? (·.contains c.toNat) with
  | some orbit => orbit.map Char.ofNat
  | none =>
    let single (mapped : List Char) : List Char := if mapped.length = 1 then mapped else []
    c :: (single (toLower c) ++ single (toUpper c))

end OpenApi.Text
