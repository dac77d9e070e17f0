import OpenApi.Json.Basic

/-!
# Schemas

A Schema Object read as a tree: one shape, and three flags beside it. References stay pointers, so
the tree is finite whatever the document's reference graph looks like, and reading it is structural
recursion on the JSON value.

The shape is decided by the first keyword that applies: `$ref`, `allOf`, `oneOf`, `anyOf`, `enum`,
`const`, then the one declared type. A schema of several types and no other shape stands for
`anyOf` over the same schema with each type alone.
-/

namespace OpenApi

/-- The primitive types. -/
inductive Primitive where
  | string
  | number
  | integer
  | boolean
  deriving DecidableEq, Repr

/-- The primitive that a type name declares. -/
def Primitive.ofName? (name : String) : Option Primitive :=
  if name = "string" then some .string
  else if name = "number" then some .number
  else if name = "integer" then some .integer
  else if name = "boolean" then some .boolean
  else none

/-- The composition keywords. -/
inductive Composition where
  | allOf
  | oneOf
  | anyOf
  deriving DecidableEq, Repr

/-- What a schema says beside its shape. -/
structure Flags where
  nullable : Bool := false
  readOnly : Bool := false
  writeOnly : Bool := false
  deriving DecidableEq, Repr, Inhabited

/-- A declared property of an object schema. -/
structure Property (α : Type) where
  name : String
  required : Bool
  schema : α
  deriving Repr

/-- A schema: flags and a shape. An object without properties is open; an enumeration keeps the one
primitive type declared beside it. -/
inductive Schema where
  | reference (flags : Flags) (pointer : String)
  | composite (flags : Flags) (kind : Composition) (members : List Schema)
  | enumeration (flags : Flags) (values : List Json) (base : Option Primitive)
  | object (flags : Flags) (properties : List (Property Schema))
  | array (flags : Flags) (items : Option Schema)
  | primitive (flags : Flags) (kind : Primitive)
  | unknown (flags : Flags)
  deriving Repr, Inhabited

namespace Schema

/-- The flags of a schema. -/
def flags : Schema → Flags
  | reference flags _ => flags
  | composite flags _ _ => flags
  | enumeration flags _ _ => flags
  | object flags _ => flags
  | array flags _ => flags
  | primitive flags _ => flags
  | unknown flags => flags

/-- The pointer of a reference. -/
def pointer? : Schema → Option String
  | reference _ pointer => some pointer
  | _ => none

/-! ## Keywords of one object -/

/-- Whether the member `name` is the value `true`. -/
def flag (name : String) (members : Members) : Bool :=
  ((members.lookup name).bind Json.asBool?).getD false

/-- The strings of a list of values. -/
def strings (items : List Json) : List String := items.filterMap Json.asString?

/-- The declared types: those of a string or of an array, other items of which are ignored. -/
def declaredTypes (members : Members) : List String :=
  match members.lookup "type" with
  | some (.string name) => [name]
  | some (.array items) => strings items
  | _ => []

/-- The declared types other than `null`. -/
def valueTypes (members : Members) : List String :=
  (declaredTypes members).filter (· ≠ "null")

/-- Whether an object schema declares that it admits null, in any of the three spellings. -/
def admitsNull (members : Members) : Bool :=
  flag "nullable" members || flag "x-nullable" members || (declaredTypes members).contains "null"

/-- Whether a value is a schema that declares that it admits null. -/
def valueAdmitsNull : Json → Bool
  | .object members => admitsNull members
  | _ => false

/-- The flags of an object schema. -/
def flagsOf (members : Members) : Flags where
  nullable := admitsNull members
  readOnly := flag "readOnly" members
  writeOnly := flag "writeOnly" members

/-- The names listed by `required`. -/
def requiredNames (members : Members) : List String :=
  (((members.lookup "required").bind Json.asArray?).map strings).getD []

/-- The only element of a list. -/
def only? : List String → Option String
  | [name] => some name
  | _ => none

/-! ## Reading -/

/-- The schemas below one object schema, by the keyword that holds them. -/
structure Parts where
  allOf : Option (List Schema) := none
  oneOf : Option (List Schema) := none
  anyOf : Option (List Schema) := none
  items : Option Schema := none
  properties : List (String × Schema) := []

/-- The object shape: the declared properties, those listed by `required` marked so. -/
def objectShape (members : Members) (parts : Parts) (flags : Flags) : Schema :=
  let required := requiredNames members
  .object flags (parts.properties.map fun (name, schema) => ⟨name, required.contains name, schema⟩)

/-- The shape that one declared type gives. -/
def typedShape (members : Members) (parts : Parts) (flags : Flags) (type : String) : Schema :=
  if type = "array" then .array flags parts.items
  else if type = "object" then objectShape members parts flags
  else
    match Primitive.ofName? type with
    | some kind => .primitive flags kind
    | none => .unknown flags

/-- The flags of the single-type members that a schema of several types stands for: `nullable` and
the type `null` belong to the whole, `x-nullable` is repeated in each. -/
def alternativeFlags (members : Members) : Flags :=
  { flagsOf members with nullable := flag "x-nullable" members }

/-- The shape by declared type: of the one type, of an object that only lists properties, or a
choice between several types. -/
def shapeByType (members : Members) (parts : Parts) (flags : Flags) : Schema :=
  match valueTypes members with
  | [] =>
    if (members.lookup "properties").isSome then objectShape members parts flags
    else .unknown flags
  | [type] => typedShape members parts flags type
  | types =>
    .composite flags .anyOf (types.map (typedShape members parts (alternativeFlags members)))

/-- Decides the shape of an object schema from its keywords and the schemas below it. -/
def assemble (members : Members) (parts : Parts) : Schema :=
  let flags := flagsOf members
  match (members.lookup "$ref").bind Json.asString? with
  | some pointer => .reference flags pointer
  | none =>
    match parts.allOf, parts.oneOf, parts.anyOf with
    | some schemas, _, _ => .composite flags .allOf schemas
    | none, some schemas, _ => .composite flags .oneOf schemas
    | none, none, some schemas => .composite flags .anyOf schemas
    | none, none, none =>
      let base := (only? (valueTypes members)).bind Primitive.ofName?
      match (members.lookup "enum").bind Json.asArray? with
      | some values => .enumeration flags values base
      | none =>
        match members.lookup "const" with
        | some value => .enumeration flags [value] base
        | none => shapeByType members parts flags

mutual

/-- Reads a schema; what is no object has no recognised shape. -/
def ofJson : Json → Schema
  | .object members => assemble members (parts members)
  | _ => .unknown {}

/-- The schemas below the members of an object. -/
def parts : List (String × Json) → Parts
  | [] => {}
  | (name, value) :: rest =>
    let below := parts rest
    if name = "allOf" then { below with allOf := ofArray value }
    else if name = "oneOf" then { below with oneOf := ofArray value }
    else if name = "anyOf" then { below with anyOf := ofArray value }
    else if name = "items" then { below with items := some (ofJson value) }
    else if name = "properties" then { below with properties := ofObject value }
    else below

/-- The schemas that an array holds. -/
def ofArray : Json → Option (List Schema)
  | .array items => some (ofItems items)
  | _ => none

/-- The schemas that a list of values denotes. -/
def ofItems : List Json → List Schema
  | [] => []
  | item :: rest => ofJson item :: ofItems rest

/-- The named schemas that an object holds. -/
def ofObject : Json → List (String × Schema)
  | .object members => ofMembers members
  | _ => []

/-- The named schemas that a list of members denotes. -/
def ofMembers : List (String × Json) → List (String × Schema)
  | [] => []
  | (name, value) :: rest => (name, ofJson value) :: ofMembers rest

end

end Schema

end OpenApi
