import OpenApi.Text.Case
import OpenApi.Text.CharClass

/-!
# Words of an identifier and their cases

An identifier is cut into words at the characters that are neither letters nor numbers, and inside
such a piece before every change from lower to upper case and before the last capital of a run of
capitals that a lower-case letter follows: `getHTTPResponse2` is `get`, `HTTP`, `Response2`.
-/

namespace OpenApi.Text

/-! ## Cutting -/

/-- The maximal runs of letters and numbers; `piece` holds the run just before, in reverse. -/
def pieces (piece : List Char) : List Char → List (List Char)
  | [] => [piece.reverse]
  | c :: rest =>
    if isAlphanumeric c then pieces (c :: piece) rest else piece.reverse :: pieces [] rest

/-- The case of the cased letter last read in a word, if one was read. -/
inductive WordCase where
  | none
  | lower
  | upper
  deriving DecidableEq

/-- The case after a character: its own, or the one before if it has none. -/
def WordCase.after (before : WordCase) (c : Char) : WordCase :=
  if isLower c then .lower else if isUpper c then .upper else before

/-- Cuts a piece into words; `word` holds the characters of the current word, in reverse. -/
def humps (mode : WordCase) (word : List Char) : List Char → List (List Char)
  | [] => []
  | [c] => [(c :: word).reverse]
  | c :: next :: rest =>
    let after := mode.after c
    if after = .lower ∧ isUpper next then (c :: word).reverse :: humps .none [] (next :: rest)
    else if mode = .upper ∧ isUpper c ∧ isLower next then
      word.reverse :: humps .none [c] (next :: rest)
    else humps after (c :: word) (next :: rest)

/-- The words of an identifier. -/
def words (text : List Char) : List (List Char) := (pieces [] text).flatMap (humps .none [])

/-! ## Joining -/

/-- A word in lower case; a sigma at its end takes its final form. -/
def lowerWord : List Char → List Char
  | [] => []
  | [c] => if c = 'Σ' then ['ς'] else toLower c
  | c :: rest => toLower c ++ lowerWord rest

/-- A word with a capital first letter. -/
def capitalWord : List Char → List Char
  | [] => []
  | c :: rest => toUpper c ++ lowerWord rest

/-- The cases that operation names can be given. -/
inductive NameCase where
  | camel
  | pascal
  | snake
  deriving DecidableEq, Repr

/-- Writes the words of an identifier in a case. -/
def NameCase.apply (nameCase : NameCase) (name : String) : String :=
  let found := words name.toList
  String.ofList <|
    match nameCase, found with
    | .camel, first :: rest => lowerWord first ++ rest.flatMap capitalWord
    | .camel, [] => []
    | .pascal, found => found.flatMap capitalWord
    | .snake, found => ['_'].intercalate (found.map lowerWord)

end OpenApi.Text
