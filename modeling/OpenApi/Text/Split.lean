/-!
# Cutting text at a character

`splitAt` cuts at every occurrence of a character and keeps the empty pieces, so the pieces joined
by that character give the text back; there is always at least one piece.
-/

namespace OpenApi.Text

/-- The pieces of `text` between the occurrences of `mark`. -/
def splitAt (mark : Char) : List Char → List (List Char)
  | [] => [[]]
  | c :: rest =>
    if c = mark then [] :: splitAt mark rest
    else
      match splitAt mark rest with
      | piece :: pieces => (c :: piece) :: pieces
      | [] => [[c]]

/-- The text before the first occurrence of `mark` and the text after it, if it occurs. -/
def cutAt? (mark : Char) : List Char → Option (List Char × List Char)
  | [] => none
  | c :: rest =>
    if c = mark then some ([], rest)
    else (cutAt? mark rest).map fun (before, after) => (c :: before, after)

/-- The piece after the last occurrence of `mark`. -/
def lastPiece (mark : Char) (text : List Char) : List Char :=
  (splitAt mark text).getLast?.getD []

theorem splitAt_ne_nil (mark : Char) (text : List Char) : splitAt mark text ≠ [] := by
  cases text with
  | nil => simp [splitAt]
  | cons c rest =>
    unfold splitAt
    split
    · simp
    · split <;> simp

end OpenApi.Text
