import OpenApi.Pattern.Program

/-!
# Replacing matches

The first match of a pattern is replaced by a text that may refer to its groups, or every match by what
a function makes of its groups. A replacement text refers to groups by number or name, in braces or by
the longest name that follows the dollar sign; a group that is unknown or took no part is empty, two
dollar signs stand for one, and a dollar sign before anything else for itself.
-/

namespace OpenApi.Pattern

/-- A letter of a bare group name. -/
def isReferenceChar (c : Char) : Bool := c.isAlphanum || c = '_'

/-- The group number that a text denotes. -/
def groupNumber? (text : List Char) : Option Nat :=
  let digits : List Char :=
    match text with
    | '+' :: rest => rest
    | digits => digits
  let value : Nat := digits.foldl (fun value c => value * 10 + (c.toNat - '0'.toNat)) 0
  if digits.isEmpty ∨ ¬digits.all Char.isDigit ∨ Nat.pow 2 64 ≤ value then none else some value

/-- The text of the group that a text refers to. -/
def groupText (names : List (String × Nat)) (groups : List (Nat × List Char))
    (reference : List Char) : List Char :=
  let index :=
    match groupNumber? reference with
    | some index => some index
    | none => names.lookup (String.ofList reference)
  (index.bind (groups.lookup ·)).getD []

/-- Writes a replacement; `fuel` bounds its length. -/
def expandReplacement (names : List (String × Nat)) (groups : List (Nat × List Char)) :
    Nat → List Char → List Char
  | 0, text => text
  | _, [] => []
  | fuel + 1, c :: rest =>
    if c ≠ '$' then c :: expandReplacement names groups fuel rest
    else
      match rest with
      | '$' :: rest => '$' :: expandReplacement names groups fuel rest
      | '{' :: inside =>
        match inside.dropWhile (· ≠ '}') with
        | _ :: after =>
          groupText names groups (inside.takeWhile (· ≠ '}'))
            ++ expandReplacement names groups fuel after
        | [] => '$' :: expandReplacement names groups fuel rest
      | rest =>
        let name := rest.takeWhile isReferenceChar
        if name.isEmpty then '$' :: expandReplacement names groups fuel rest
        else
          groupText names groups name
            ++ expandReplacement names groups fuel (rest.dropWhile isReferenceChar)

/-- The text with the leftmost match replaced, if there is one. -/
def Compiled.replaceFirst (pattern : Compiled) (replacement text : String) : String :=
  match pattern.find? text.toList with
  | none => text
  | some found =>
    let written := replacement.toList
    String.ofList (found.before
      ++ expandReplacement pattern.names found.groups (written.length + 1) written ++ found.after)

/-- The text of a whole match. -/
def Match.whole (found : Match) : List Char := (found.groups.lookup 0).getD []

/-- The text with every match replaced by what `write` makes of its groups. The next match is looked for
behind the last one, and one of the empty text only where no match has just ended, which `touching`
tells. `before` is the character before the text, and `fuel` bounds the searches. -/
def Compiled.replaceEach (pattern : Compiled) (write : List (Nat × List Char) → List Char) :
    Nat → Bool → Option Char → List Char → List Char
  | 0, _, _, text => text
  | fuel + 1, touching, before, text =>
    match pattern.findAfter? before text with
    | none => text
    | some found =>
      if touching ∧ found.before.isEmpty ∧ found.whole.isEmpty then
        match text with
        | [] => []
        | c :: rest => c :: replaceEach pattern write fuel false (some c) rest
      else
        found.before ++ write found.groups
          ++ replaceEach pattern write fuel true
            ((found.before ++ found.whole).getLast?.or before) found.after

/-- The text with every match replaced. -/
def Compiled.replaceAll (pattern : Compiled) (write : List (Nat × List Char) → List Char)
    (text : List Char) : List Char :=
  pattern.replaceEach write (2 * text.length + 2) false none text

end OpenApi.Pattern
