import OpenApi.Number.Binary64

/-!
# JSON values with ordered members

Documents are echoed, walked and lowered in the order they were written, so an object is a list of
members and order belongs to equality. Integers and doubles are different numbers: an integer
literal within 64 bits stays exact, every other number is the nearest double.
-/

namespace OpenApi

/-- A JSON number. -/
inductive Number where
  | integer (value : Int)
  | real (value : Binary64)
  deriving DecidableEq, Repr, Inhabited

/-- A JSON value; the members of an object are in document order. -/
inductive Json where
  | null
  | bool (value : Bool)
  | number (value : Number)
  | string (value : String)
  | array (items : List Json)
  | object (members : List (String × Json))
  deriving Repr, Inhabited

/-- The members of an object, in document order, each name at most once. -/
abbrev Members := List (String × Json)

namespace Members

/-- Gives the member `name` the value `value`: in its place if there is one, else at the end. -/
def set (name : String) (value : Json) : Members → Members
  | [] => [(name, value)]
  | (key, old) :: rest =>
    if key = name then (key, value) :: rest else (key, old) :: set name value rest

/-- The members in the order of first appearance, each with its last value. -/
def ofPairs (pairs : List (String × Json)) : Members :=
  pairs.foldl (fun members (name, value) => set name value members) []

/-- The names, in order. -/
def names (members : Members) : List String := members.map Prod.fst

end Members

namespace Json

/-- The text of a string value. -/
def asString? : Json → Option String
  | string text => some text
  | _ => none

/-- The value of a Boolean. -/
def asBool? : Json → Option Bool
  | bool value => some value
  | _ => none

/-- The items of an array. -/
def asArray? : Json → Option (List Json)
  | array items => some items
  | _ => none

/-- The members of an object. -/
def asObject? : Json → Option Members
  | object members => some members
  | _ => none

/-- The member `name` of an object; no other value has members. -/
def member? (name : String) : Json → Option Json
  | object members => members.lookup name
  | _ => none

/-- The `$ref` text of a Reference Object: an object whose `$ref` is a string, whatever else it
holds. -/
def reference? (value : Json) : Option String := (value.member? "$ref").bind asString?

end Json

end OpenApi
