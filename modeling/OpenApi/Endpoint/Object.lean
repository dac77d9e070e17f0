import OpenApi.Endpoint.Basic
import OpenApi.Text.CharClass
import OpenApi.Text.Split

/-!
# Path items and what they hold, as written

The objects of a document that endpoints are built from, reduced to the members that matter. Reading
is strict about the types of those members and ignores all others. An object may also be written as
the array of its members in order; members at the end may then be left out only where a default
stands for them.
-/

namespace OpenApi

/-! ## Members -/

/-- Gives names to the items of an array; `omissible` tells which members the array may lack. -/
def positional? : (members : List (String × Bool)) → List Json → Option Members
  | [], [] => some []
  | [], _ :: _ => none
  | (_, omissible) :: rest, [] => if omissible then positional? rest [] else none
  | (name, _) :: rest, item :: items => (positional? rest items).map ((name, item) :: ·)

/-- The members of an object in either form. -/
def membersOf? (members : List (String × Bool)) : Json → Option Members
  | .object found => some found
  | .array items => positional? members items
  | _ => none

/-- Reads a member that must be there. -/
def readMember (members : Members) (name : String) (read : Json → Option α) : Option α :=
  (members.lookup name).bind read

/-- Reads a member that may be absent or null. -/
def readOptional (members : Members) (name : String) (read : Json → Option α) : Option (Option α) :=
  match members.lookup name with
  | none => some none
  | some .null => some none
  | some value => (read value).map some

/-- Reads a member that may be absent. -/
def readDefault (members : Members) (name : String) (default : α) (read : Json → Option α) :
    Option α :=
  match members.lookup name with
  | none => some default
  | some value => read value

/-- Reads every item of an array. -/
def readItems (read : Json → Option α) (value : Json) : Option (List α) :=
  value.asArray?.bind (·.mapM read)

/-- Reads every member of an object. -/
def readEntries (read : Json → Option α) (value : Json) : Option (List (String × α)) :=
  value.asObject?.bind (·.mapM fun (name, value) => (read value).map (name, ·))

/-! ## References or values -/

/-- A component written in place or referred to. -/
inductive OrReference (α : Type) where
  | reference (pointer : String)
  | value (value : α)
  deriving Repr

/-- The pointer of a Reference Object whose annotations are texts. -/
def referencePointer? (value : Json) : Option String := do
  let members ← membersOf? [("$ref", false), ("description", true), ("summary", true)] value
  let pointer ← readMember members "$ref" Json.asString?
  let _ ← readDefault members "description" "" Json.asString?
  let _ ← readDefault members "summary" "" Json.asString?
  some pointer

/-- Reads a reference, or else a value. -/
def OrReference.ofJson? (read : Json → Option α) (value : Json) : Option (OrReference α) :=
  match referencePointer? value with
  | some pointer => some (.reference pointer)
  | none => (read value).map .value

/-! ## Objects -/

/-- A Media Type Object. -/
structure MediaType where
  schema : Option Json
  deriving Repr

/-- Reads a Media Type Object. -/
def MediaType.ofJson? (value : Json) : Option MediaType := do
  let members ← membersOf? [("schema", false)] value
  let schema ← readOptional members "schema" some
  some ⟨schema⟩

/-- Media types by their names. -/
abbrev Content := List (String × MediaType)

/-- Reads media types. -/
def Content.ofJson? : Json → Option Content := readEntries MediaType.ofJson?

/-- A Parameter Object. -/
structure ParameterObject where
  name : String
  location : String
  required : Bool
  schema : Option Json
  content : Content
  deriving Repr

/-- Reads a Parameter Object. -/
def ParameterObject.ofJson? (value : Json) : Option ParameterObject := do
  let members ←
    membersOf? [("name", false), ("in", false), ("required", true), ("schema", false),
      ("content", true)] value
  let name ← readMember members "name" Json.asString?
  let location ← readMember members "in" Json.asString?
  let required ← readDefault members "required" false Json.asBool?
  let schema ← readOptional members "schema" some
  let content ← readDefault members "content" [] Content.ofJson?
  some { name, location, required, schema, content }

/-- A Request Body Object. -/
structure RequestBodyObject where
  content : Content
  required : Bool
  deriving Repr

/-- Reads a Request Body Object. -/
def RequestBodyObject.ofJson? (value : Json) : Option RequestBodyObject := do
  let members ← membersOf? [("content", true), ("required", true)] value
  let content ← readDefault members "content" [] Content.ofJson?
  let required ← readDefault members "required" false Json.asBool?
  some { content, required }

/-- A Response Object; without content there is no body. -/
structure ResponseObject where
  content : Option Content
  deriving Repr

/-- Reads a Response Object. -/
def ResponseObject.ofJson? (value : Json) : Option ResponseObject := do
  let members ← membersOf? [("content", false)] value
  let content ← readOptional members "content" Content.ofJson?
  some { content }

/-- An Operation Object. -/
structure Operation where
  operationId : Option String
  parameters : List (OrReference ParameterObject)
  requestBody : Option (OrReference RequestBodyObject)
  responses : List (String × OrReference ResponseObject)
  deriving Repr

/-- Reads a list of parameters. -/
def readParameters : Json → Option (List (OrReference ParameterObject)) :=
  readItems (OrReference.ofJson? ParameterObject.ofJson?)

/-- Reads responses by their keys. -/
def readResponses : Json → Option (List (String × OrReference ResponseObject)) :=
  readEntries (OrReference.ofJson? ResponseObject.ofJson?)

/-- Reads an Operation Object. -/
def Operation.ofJson? (value : Json) : Option Operation := do
  let members ←
    membersOf? [("operationId", false), ("parameters", true), ("requestBody", false),
      ("responses", true)] value
  let operationId ← readOptional members "operationId" Json.asString?
  let parameters ← readDefault members "parameters" [] readParameters
  let requestBody ←
    readOptional members "requestBody" (OrReference.ofJson? RequestBodyObject.ofJson?)
  let responses ← readDefault members "responses" [] readResponses
  some { operationId, parameters, requestBody, responses }

/-- A Path Item Object: shared parameters, and the declared operations in the order of the methods.
-/
structure PathItem where
  parameters : List (OrReference ParameterObject) := []
  operations : List (Method × Operation) := []
  deriving Repr

/-- Reads the operation of a method, if it is declared. -/
def readOperation (members : Members) (method : Method) : Option (List (Method × Operation)) :=
  (readOptional members method.name Operation.ofJson?).map fun operation =>
    (operation.map (method, ·)).toList

/-- Reads a Path Item Object; null declares nothing. -/
def PathItem.ofJson? (value : Json) : Option PathItem :=
  match value with
  | .null => some {}
  | value => do
    let members ←
      membersOf? (("parameters", true) :: Method.all.map fun method => (method.name, false)) value
    let parameters ← readDefault members "parameters" [] readParameters
    let operations ← Method.all.mapM (readOperation members)
    some { parameters, operations := operations.flatten }

/-! ## Choosing a media type -/

/-- A media type name without its parameters, in lower case. -/
def essence (name : String) : String :=
  String.ofList ((Text.trim (name.toList.takeWhile (· ≠ ';'))).map Char.toLower)

/-- The JSON media type: `application/json` itself, or else with parameters, or else the first type
of the `+json` family. -/
def Content.json? (content : Content) : Option MediaType :=
  match content.lookup "application/json" with
  | some media => some media
  | none =>
    match content.find? fun (name, _) => essence name = "application/json" with
    | some (_, media) => some media
    | none =>
      (content.find? fun (name, _) => "+json".toList.isSuffixOf (essence name).toList).map Prod.snd

/-- The schema of the JSON media type. -/
def Content.jsonSchema? (content : Content) : Option Json := content.json?.bind MediaType.schema

end OpenApi
