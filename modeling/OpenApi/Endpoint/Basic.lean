import OpenApi.Json.Basic
import OpenApi.TypeExpr

/-!
# Endpoints

What a document resolves to: its named types, and one endpoint for every operation of every path.
Types are kept as expressions; they are written out when the description is turned into JSON.
-/

namespace OpenApi

/-- The methods that a path item may declare. -/
inductive Method where
  | get
  | put
  | post
  | delete
  | options
  | head
  | patch
  | trace
  deriving DecidableEq, Repr

namespace Method

/-- The methods in the order in which the operations of a path are listed. -/
def all : List Method := [get, put, post, delete, options, head, patch, trace]

/-- The member of a path item that declares the operation. -/
def name : Method → String
  | get => "get"
  | put => "put"
  | post => "post"
  | delete => "delete"
  | options => "options"
  | head => "head"
  | patch => "patch"
  | trace => "trace"

end Method

/-- Where a parameter is carried. -/
inductive ParameterLocation where
  | path
  | query
  | header
  | cookie
  deriving DecidableEq, Repr

namespace ParameterLocation

/-- The location that a name denotes. -/
def ofName? (name : String) : Option ParameterLocation :=
  if name = "path" then some path
  else if name = "query" then some query
  else if name = "header" then some header
  else if name = "cookie" then some cookie
  else none

/-- The name of a location. -/
def name : ParameterLocation → String
  | path => "path"
  | query => "query"
  | header => "header"
  | cookie => "cookie"

end ParameterLocation

/-- A resolved parameter. -/
structure Parameter where
  name : String
  location : ParameterLocation
  required : Bool
  type : TypeExpr
  deriving Repr

/-- A resolved request body. -/
structure RequestBody where
  type : TypeExpr
  required : Bool
  deriving Repr

/-- The key of a response: a status code, or any other text. -/
inductive Status where
  | code (value : Nat)
  | other (key : String)
  deriving DecidableEq, Repr

namespace Status

/-- Reads a key: decimal digits after an optional plus sign, up to 65535, are a code. -/
def ofKey (key : String) : Status :=
  let digits : List Char :=
    match key.toList with
    | '+' :: rest => rest
    | digits => digits
  let value : Nat := digits.foldl (fun value c => 10 * value + (c.toNat - '0'.toNat)) 0
  if digits.isEmpty ∨ ¬digits.all Char.isDigit ∨ 65535 < value then other key else code value

/-- The text of a status. -/
def text : Status → String
  | code value => toString value
  | other key => key

end Status

/-- A resolved response. -/
structure Response where
  status : Status
  type : TypeExpr
  deriving Repr

/-- A resolved operation. -/
structure Endpoint where
  path : String
  method : Method
  operationName : String
  parameters : List Parameter
  /-- Those of the parameters that are carried in the path. -/
  pathParameters : List Parameter
  /-- Those of the parameters that are carried in the query. -/
  queryParameters : List Parameter
  requestBody : Option RequestBody
  responses : List Response
  deriving Repr

/-- A type with its name. -/
structure NamedType where
  name : String
  type : TypeExpr
  deriving Repr

/-- Everything that a document resolves to. -/
structure Description where
  schemas : List NamedType
  endpoints : List Endpoint
  deriving Repr

namespace Description

/-- The first type of a name. -/
def schema? (description : Description) (name : String) : Option NamedType :=
  description.schemas.find? (·.name = name)

/-- The first endpoint of an operation name. -/
def endpoint? (description : Description) (operationName : String) : Option Endpoint :=
  description.endpoints.find? (·.operationName = operationName)

end Description

/-! ## As JSON -/

/-- A type as JSON: its text. -/
def TypeExpr.toJson (type : TypeExpr) : Json := .string type.text

/-- A parameter as JSON. -/
def Parameter.toJson (p : Parameter) : Json :=
  .object [("name", .string p.name), ("in", .string p.location.name),
    ("required", .bool p.required), ("typeString", p.type.toJson)]

/-- A request body as JSON. -/
def RequestBody.toJson (body : RequestBody) : Json :=
  .object [("typeString", body.type.toJson), ("required", .bool body.required)]

/-- A status as JSON: a code is a number. -/
def Status.toJson : Status → Json
  | code value => .number (.integer value)
  | other key => .string key

/-- A response as JSON. -/
def Response.toJson (response : Response) : Json :=
  .object [("status", response.status.toJson), ("typeString", response.type.toJson)]

/-- An endpoint as JSON. -/
def Endpoint.toJson (endpoint : Endpoint) : Json :=
  .object [("path", .string endpoint.path), ("method", .string endpoint.method.name),
    ("operationName", .string endpoint.operationName),
    ("parameters", .array (endpoint.parameters.map Parameter.toJson)),
    ("pathParameters", .array (endpoint.pathParameters.map Parameter.toJson)),
    ("queryParameters", .array (endpoint.queryParameters.map Parameter.toJson)),
    ("requestBody", (endpoint.requestBody.map RequestBody.toJson).getD .null),
    ("responses", .array (endpoint.responses.map Response.toJson))]

/-- A named type as JSON. -/
def NamedType.toJson (type : NamedType) : Json :=
  .object [("name", .string type.name), ("typeString", type.type.toJson)]

/-- A description as JSON. -/
def Description.toJson (description : Description) : Json :=
  .object [("schemas", .array (description.schemas.map NamedType.toJson)),
    ("endpoints", .array (description.endpoints.map Endpoint.toJson))]

end OpenApi
