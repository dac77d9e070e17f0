import OpenApi.Json.Printer
import OpenApi.Schema.Access
import OpenApi.Settings
import OpenApi.TypeExpr

/-!
# Lowering schemas to type expressions

Lowering is structural recursion on the schema. A reference becomes a name and is never entered: its
target only decides whether the type admits null and which variant of the name is meant, so cyclic
schemas need no care. In the view of a request the properties flagged `readOnly` are left out and a
reference to a component that holds such a property means its `Writable` variant; the view of a
response does the same with `writeOnly` and `Readable`.

A schema without recognised shape has no type; callers put `unknown` in its place.
-/

namespace OpenApi

/-- Whose view of the data a type describes. -/
inductive View where
  | full
  | request
  | response
  deriving DecidableEq, Repr

/-- The flag of what a view leaves out. -/
def View.hidden? : View → Option Access
  | full => none
  | request => some .readOnly
  | response => some .writeOnly

/-- What is appended to the name of a component that holds something hidden. -/
def View.suffix : View → String
  | full => ""
  | request => "Writable"
  | response => "Readable"

/-- Whether a view leaves out a property with these flags. -/
def View.hides (view : View) (flags : Flags) : Bool :=
  match view.hidden? with
  | some access => flags.has access
  | none => false

/-- How names and properties are treated while lowering. -/
structure Context where
  /-- Whether referenced names are qualified by the namespace. -/
  qualified : Bool := false
  view : View := .full
  deriving DecidableEq, Repr, Inhabited

/-- The type of a member of an enumeration: quoted where strings are declared, bare elsewhere. -/
def TypeExpr.ofValue (base : Option Primitive) : Json → TypeExpr
  | .null => .null
  | .string text => if base = some .string then .stringLiteral text else .literal text
  | value => if base = some .string then .stringLiteral value.compact else .literal value.compact

/-- Whether a pointer leads to a member of `components/schemas`; slashes before it do not count. -/
def isComponentSchema (pointer : String) : Bool :=
  match (Reference.parse pointer).fragment with
  | none => false
  | some fragment =>
    let path := fragment.toList.dropWhile (· = '/')
    match (Text.splitAt '/' path).map fun token => Pointer.decodeToken (String.ofList token) with
    | [components, schemas, _] => components = "components" ∧ schemas = "schemas"
    | _ => false

namespace Api

/-- What the view appends to the type name of a pointer: the suffix, if the pointer leads to a
component schema that holds what the view hides. -/
def variantSuffix (api : Api) (view : View) (pointer : String) : String :=
  match view.hidden?, api.document.schemaAt? pointer with
  | some access, some target =>
    if isComponentSchema pointer && api.document.holds access target then view.suffix else ""
  | _, _ => ""

/-- The type that a pointer stands for. -/
def referenceType (api : Api) (context : Context) (pointer : String) : TypeExpr :=
  let name := Reference.typeName pointer ++ api.variantSuffix context.view pointer
  let space := api.settings.schemaNamespace
  .named (if context.qualified ∧ space ≠ "" then space ++ "." ++ name else name)

/-- Whether a pointer leads to a schema that admits null. -/
def targetAdmitsNull (api : Api) (pointer : String) : Bool :=
  ((api.document.resolve? pointer).map Schema.valueAdmitsNull).getD false

/-- Adds null to a type if asked to. -/
def withNull (nullable : Bool) (type : TypeExpr) : TypeExpr :=
  if nullable then type.orNull else type

/-- The type of a composite, which needs at least one member with a type. -/
def composed (kind : Composition) : List TypeExpr → Option TypeExpr
  | [] => none
  | types =>
    match kind with
    | .allOf => some (.intersectionOf types)
    | .oneOf => some (.unionOf types)
    | .anyOf => some (.unionOf types)

mutual

/-- The type of a schema, if it has a recognised shape. -/
def lower (api : Api) (context : Context) : Schema → Option TypeExpr
  | .reference flags pointer =>
    some (withNull (flags.nullable || api.targetAdmitsNull pointer)
      (api.referenceType context pointer))
  | .composite flags kind members =>
    (composed kind (lowerMembers api context members)).map (withNull flags.nullable)
  | .enumeration _ [] _ => none
  | .enumeration flags (value :: values) base =>
    some (withNull flags.nullable (.unionOf ((value :: values).map (TypeExpr.ofValue base))))
  | .array flags none => some (withNull flags.nullable (.array .unknown))
  | .array flags (some items) =>
    some (withNull flags.nullable (.array ((lower api context items).getD .unknown)))
  | .object flags [] => some (withNull flags.nullable .openObject)
  | .object flags (property :: rest) =>
    some (withNull flags.nullable
      (.record (lowerProperty api context property ++ lowerProperties api context rest)))
  | .primitive flags kind => some (withNull flags.nullable (.primitive kind))
  | .unknown _ => none

/-- The types of those members that have one. -/
def lowerMembers (api : Api) (context : Context) : List Schema → List TypeExpr
  | [] => []
  | schema :: rest => (lower api context schema).toList ++ lowerMembers api context rest

/-- The field of a property, unless the view leaves it out. -/
def lowerProperty (api : Api) (context : Context) : Property Schema → List (Field TypeExpr)
  | ⟨name, required, schema⟩ =>
    if context.view.hides schema.flags then []
    else
      [⟨name, !(required || api.settings.requiredProperties),
        (lower api context schema).getD .unknown⟩]

/-- The fields of the properties that the view keeps. -/
def lowerProperties (api : Api) (context : Context) : List (Property Schema) → List (Field TypeExpr)
  | [] => []
  | property :: rest => lowerProperty api context property ++ lowerProperties api context rest

end

/-- The type of a schema value, `unknown` where there is none. -/
def typeOf (api : Api) (context : Context) (schema : Option Json) : TypeExpr :=
  (schema.bind fun value => api.lower context (.ofJson value)).getD .unknown

end Api

end OpenApi
