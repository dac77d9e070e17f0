import OpenApi.Document
import OpenApi.Schema.Basic

/-!
# Access flags along references

Whether a schema holds a `readOnly` or `writeOnly` node anywhere, references included. The search is
depth first: it goes through a schema's own tree in order, follows each reference on its way, and ends
at the first node with the flag. The pointers it has followed are handed on from branch to branch, and a
pointer that was followed before finds nothing. Only the references inside each other are bounded; each
of them follows a new text of the document's references, so their number is enough.
-/

namespace OpenApi

/-- The two access flags. -/
inductive Access where
  | readOnly
  | writeOnly
  deriving DecidableEq, Repr

/-- Whether a flag is set. -/
def Flags.has (flags : Flags) : Access → Bool
  | .readOnly => flags.readOnly
  | .writeOnly => flags.writeOnly

/-- A search, given the pointers that were followed before it: whether it found the flag, and the
pointers followed by then. It has no answer if it meets its bound. -/
abbrev Search := List String → Option (Bool × List String)

/-- The search that follows nothing and has its answer. -/
def Search.answer (found : Bool) : Search := fun visited => some (found, visited)

/-- One search and, if it does not find the flag, another one after it. -/
def Search.orElse (first rest : Search) : Search := fun visited =>
  match first visited with
  | some (false, visited') => rest visited'
  | some (true, visited') => some (true, visited')
  | none => none

namespace Schema

mutual

/-- Searches a schema: its own node, then what stands below it or what its reference leads to. -/
def probe (access : Access) (follow : String → Search) : Schema → Search
  | .reference flags pointer => (Search.answer (flags.has access)).orElse (follow pointer)
  | .composite flags _ members =>
    (Search.answer (flags.has access)).orElse (probeAny access follow members)
  | .object flags properties =>
    (Search.answer (flags.has access)).orElse (probeProperties access follow properties)
  | .array flags (some items) =>
    (Search.answer (flags.has access)).orElse (probe access follow items)
  | .array flags none => .answer (flags.has access)
  | .enumeration flags _ _ => .answer (flags.has access)
  | .primitive flags _ => .answer (flags.has access)
  | .unknown flags => .answer (flags.has access)

/-- Searches some schemas in order. -/
def probeAny (access : Access) (follow : String → Search) : List Schema → Search
  | [] => .answer false
  | schema :: rest => (probe access follow schema).orElse (probeAny access follow rest)

/-- Searches the schemas of some properties in order. -/
def probeProperties (access : Access) (follow : String → Search) : List (Property Schema) → Search
  | [] => .answer false
  | ⟨_, _, schema⟩ :: rest =>
    (probe access follow schema).orElse (probeProperties access follow rest)

end

end Schema

namespace Document

/-- The schema that a pointer designates. -/
def schemaAt? (doc : Document) (pointer : String) : Option Schema :=
  (doc.resolve? pointer).map Schema.ofJson

/-- Searches what a pointer designates, unless the pointer was followed before. At most `depth`
references are followed inside each other. -/
def follow (doc : Document) (access : Access) : (depth : Nat) → String → Search
  | 0, _ => fun _ => none
  | depth + 1, pointer => fun visited =>
    if visited.contains pointer then Search.answer false visited
    else
      match doc.schemaAt? pointer with
      | none => Search.answer false (pointer :: visited)
      | some target => target.probe access (doc.follow access depth) (pointer :: visited)

/-- Enough for a search from any schema: it may follow a pointer that no reference of the document has,
then each text of a reference once, and then one of them again. -/
def searchDepth (doc : Document) : Nat := doc.root.references.length + 2

/-- Whether a schema holds the flag, in its own tree or along references. -/
def holds (doc : Document) (access : Access) (schema : Schema) : Bool :=
  ((schema.probe access (doc.follow access doc.searchDepth) []).map Prod.fst).getD false

end Document

end OpenApi
