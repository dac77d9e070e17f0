import OpenApi.Pointer

/-!
# Positions

Whether a value of a document is a schema is told by the keywords above it: outside schemas only the
member `schema` and the places where schemas are declared lead into one. The position of a node is
threaded through a walk, and can be recomputed from its pointer alone.
-/

namespace OpenApi

/-- Where a value stands relative to schema keywords. -/
inductive Position where
  /-- A schema. -/
  | schema
  /-- A map whose values are schemas. -/
  | schemaMap
  /-- An array whose items are schemas. -/
  | schemaList
  /-- Anything else. -/
  | other
  deriving DecidableEq, Repr

namespace Position

/-- The position below a keyword of a schema. -/
def ofKeyword (name : String) : Position :=
  if name = "items" ∨ name = "not" ∨ name = "additionalProperties" then schema
  else if name = "properties" ∨ name = "patternProperties" ∨ name = "$defs"
      ∨ name = "definitions" then
    schemaMap
  else if name = "allOf" ∨ name = "anyOf" ∨ name = "oneOf" ∨ name = "prefixItems" then schemaList
  else other

/-- The position of the member `name` of what `pointer` points to. -/
def child (position : Position) (pointer : Pointer) (name : String) : Position :=
  match position with
  | schemaMap => schema
  | schemaList => schema
  | schema => ofKeyword name
  | other =>
    if name = "schema" then schema
    else if pointer = Pointer.root.member "components" ∧ name = "schemas" then schemaMap
    else if pointer = Pointer.root ∧ name = "definitions" then schemaMap
    else other

/-- The position of the items of an array. -/
def item (position : Position) : Position := if position = schemaList then schema else other

/-- The position below `parent` that tokens lead to. -/
def follow (position : Position) (parent : Pointer) : List String → Position
  | [] => position
  | token :: rest =>
    let name := Pointer.decodeToken token
    (position.child parent name).follow (parent.member name) rest

/-- The position of a pointer in a root document. -/
def ofPointer (pointer : Pointer) : Position := other.follow .root pointer.tokens

end Position

end OpenApi
