import OpenApi.Text.Case
import OpenApi.Text.CharClass

/-!
# Regular expressions

The syntax tree of a pattern. A set of characters is its membership test, so the set operations of
bracketed classes are the Boolean ones, and matching without regard to case asks whether some case
variant of a character belongs.
-/

namespace OpenApi.Pattern

/-- A set of characters. -/
abbrev CharSet := Char → Bool

namespace CharSet

/-- The characters between two, these included. -/
def range (first last : Char) : CharSet := fun c => first ≤ c && c ≤ last

/-- The characters of a list. -/
def ofList (members : List Char) : CharSet := fun c => members.contains c

/-- The characters outside a set. -/
def complement (set : CharSet) : CharSet := fun c => !set c

/-- The characters some case variant of which belongs to a set. -/
def folded (set : CharSet) : CharSet := fun c => (Text.caseVariants c).any set

/-- The ASCII characters some ASCII case variant of which belongs to a set. -/
def foldedAscii (set : CharSet) : CharSet := fun c => set c || set c.toLower || set c.toUpper

end CharSet

/-- A condition on the characters around a place. -/
inductive Assertion where
  | textStart
  | textEnd
  | lineStart
  | lineEnd
  | crlfLineStart
  | crlfLineEnd
  | boundary (unicode : Bool)
  | noBoundary (unicode : Bool)
  | wordStart (unicode : Bool)
  | wordEnd (unicode : Bool)
  | wordStartHalf (unicode : Bool)
  | wordEndHalf (unicode : Bool)
  deriving DecidableEq, Repr

namespace Assertion

/-- Whether a character, if there is one, belongs to words. -/
def isWord (unicode : Bool) : Option Char → Bool
  | some c => if unicode then Text.isWordChar c else c.isAlphanum || c = '_'
  | none => false

/-- Whether the assertion holds between two characters, either of which the text may lack. -/
def holds (before after : Option Char) : Assertion → Bool
  | textStart => before.isNone
  | textEnd => after.isNone
  | lineStart => before.isNone || before = some '\n'
  | lineEnd => after.isNone || after = some '\n'
  | crlfLineStart =>
    before.isNone || before = some '\n' || (before = some '\r' && after ≠ some '\n')
  | crlfLineEnd =>
    after.isNone || after = some '\r' || (after = some '\n' && before ≠ some '\r')
  | boundary unicode => isWord unicode before != isWord unicode after
  | noBoundary unicode => isWord unicode before == isWord unicode after
  | wordStart unicode => !isWord unicode before && isWord unicode after
  | wordEnd unicode => isWord unicode before && !isWord unicode after
  | wordStartHalf unicode => !isWord unicode before
  | wordEndHalf unicode => !isWord unicode after

end Assertion

/-- The syntax of a pattern. Alternatives and repetitions prefer what comes first: the left
alternative, and one more repetition if they are greedy. -/
inductive Node where
  | empty
  | set (members : CharSet)
  | assertion (assertion : Assertion)
  | group (index : Nat) (body : Node)
  | repetition (least : Nat) (most : Option Nat) (greedy : Bool) (body : Node)
  | sequence (items : List Node)
  | choice (items : List Node)
  deriving Inhabited

namespace Node

mutual

/-- Whether a pattern may match the empty text. -/
def nullable : Node → Bool
  | empty => true
  | set _ => false
  | assertion _ => true
  | group _ body => nullable body
  | repetition least _ _ body => least = 0 || nullable body
  | sequence items => allNullable items
  | choice items => anyNullable items

/-- Whether each of some patterns may match the empty text. -/
def allNullable : List Node → Bool
  | [] => true
  | item :: rest => nullable item && allNullable rest

/-- Whether one of some patterns may match the empty text. -/
def anyNullable : List Node → Bool
  | [] => false
  | item :: rest => nullable item || anyNullable rest

end

mutual

/-- The size of a pattern with its repetitions written out. -/
def size : Node → Nat
  | empty => 1
  | set _ => 1
  | assertion _ => 1
  | group _ body => size body + 2
  | repetition least most _ body => (size body + 1) * (max (max least (most.getD 0)) 1) + 1
  | sequence items => sizes items
  | choice items => sizes items + 1

/-- The size of some patterns. -/
def sizes : List Node → Nat
  | [] => 0
  | item :: rest => size item + 1 + sizes rest

end

end Node

end OpenApi.Pattern
