import OpenApi.Endpoint.Naming
import OpenApi.Endpoint.Object
import OpenApi.Schema.Lowering

/-!
# Resolving endpoints

Components are followed through chains of references to the object that is meant, and their schemas
are lowered: parameters in full view, bodies in the view of a request, responses in that of a
response. The first component that cannot be followed or read fails the whole description.
-/

namespace OpenApi

mutual

/-- The texts among the leaves of a tree. -/
def Json.texts : Json → List String
  | .string text => [text]
  | .array items => Json.itemTexts items
  | .object members => Json.memberTexts members
  | _ => []

/-- The texts among the leaves of a list of values. -/
def Json.itemTexts : List Json → List String
  | [] => []
  | item :: rest => item.texts ++ Json.itemTexts rest

/-- The texts among the leaves of a list of members. -/
def Json.memberTexts : List (String × Json) → List String
  | [] => []
  | (_, value) :: rest => value.texts ++ Json.memberTexts rest

end

namespace Document

/-- Follows a pointer to a component; `seen` holds the pointers followed so far. Every pointer but
the first is a text of the tree, so the number of its texts bounds `fuel`. -/
def followComponent (doc : Document) (kind : ComponentKind) (read : Json → Option α) :
    Nat → List String → String → Except Error α
  | 0, _, pointer => .error (.parse (.referenceCycle kind pointer))
  | fuel + 1, seen, pointer =>
    if seen.contains pointer then .error (.parse (.referenceCycle kind pointer))
    else
      match doc.resolve? pointer with
      | none => .error (.unresolvedReference pointer doc.uri)
      | some target =>
        match OrReference.ofJson? read target with
        | none => .error (.parse (.componentShape kind pointer))
        | some (.value value) => .ok value
        | some (.reference next) => doc.followComponent kind read fuel (pointer :: seen) next

/-- The component that is written in place or referred to. -/
def component (doc : Document) (kind : ComponentKind) (read : Json → Option α) :
    OrReference α → Except Error α
  | .value value => .ok value
  | .reference pointer => doc.followComponent kind read (doc.root.texts.length + 3) [] pointer

/-- The path item that a value of `paths` stands for. -/
def pathItem (doc : Document) (path : String) (value : Json) : Except Error PathItem :=
  match doc.deref value with
  | none => .error (.parse (.pathItemCycle path))
  | some target =>
    match PathItem.ofJson? target with
    | none => .error (.parse (.pathItemShape path))
    | some item => .ok item

end Document

namespace Api

/-- The schema of a parameter: its own, or that of its JSON content. -/
def parameterSchema (parameter : ParameterObject) : Option Json :=
  parameter.schema.or parameter.content.jsonSchema?

/-- Resolves a parameter, unless its location is none of the known ones. -/
def parameter? (api : Api) (allRequired : Bool) (parameter : ParameterObject) : Option Parameter :=
  (ParameterLocation.ofName? parameter.location).map fun location =>
    { name := parameter.name
      location
      required := allRequired || parameter.required
      type := api.typeOf { qualified := true } (parameterSchema parameter) }

/-- Resolves parameters, in order. -/
def parameters (api : Api) (allRequired : Bool) (written : List (OrReference ParameterObject)) :
    Except Error (List Parameter) := do
  let objects ← written.mapM (api.document.component .parameter ParameterObject.ofJson?)
  return objects.filterMap (api.parameter? allRequired)

/-- Resolves a request body. -/
def requestBody (api : Api) (written : OrReference RequestBodyObject) :
    Except Error RequestBody := do
  let body ← api.document.component .requestBody RequestBodyObject.ofJson? written
  return { type := api.typeOf { qualified := true, view := .request } body.content.jsonSchema?
           required := body.required }

/-- The type of a response: null without content. -/
def responseType (api : Api) (response : ResponseObject) : TypeExpr :=
  match response.content with
  | none => .null
  | some content => api.typeOf { qualified := true, view := .response } content.jsonSchema?

/-- Resolves a response. -/
def response (api : Api) (key : String) (written : OrReference ResponseObject) :
    Except Error Response := do
  let object ← api.document.component .response ResponseObject.ofJson? written
  return { status := .ofKey key, type := api.responseType object }

/-- Resolves responses, in order. -/
def responses (api : Api) (written : List (String × OrReference ResponseObject)) :
    Except Error (List Response) :=
  written.mapM fun (key, object) => api.response key object

/-- Resolves an operation; its path is transformed before a name is derived from it. -/
def endpoint (api : Api) (path : String) (shared : List (OrReference ParameterObject))
    (method : Method) (operation : Operation) : Except Error Endpoint := do
  let path := api.settings.transformPath path
  let parameters ← api.parameters api.settings.requiredParameters (shared ++ operation.parameters)
  let requestBody ← operation.requestBody.mapM api.requestBody
  let responses ← api.responses operation.responses
  let carried (location : ParameterLocation) := parameters.filter (·.location = location)
  return { path, method
           operationName :=
             method.operationName path operation.operationId api.settings.operationCase
           parameters, pathParameters := carried .path, queryParameters := carried .query
           requestBody, responses }

/-- Resolves the operations of a path item. -/
def itemEndpoints (api : Api) (path : String) (item : PathItem) : Except Error (List Endpoint) :=
  item.operations.mapM fun (method, operation) => api.endpoint path item.parameters method operation

/-- Resolves the operations of a value of `paths`. -/
def pathEndpoints (api : Api) (path : String) (value : Json) : Except Error (List Endpoint) := do
  api.itemEndpoints path (← api.document.pathItem path value)

/-- Whether a member of `paths` is an extension and no path. -/
def isExtension (path : String) : Bool := "x-".toList.isPrefixOf path.toList

/-- Resolves every operation, in document order. -/
def endpoints (api : Api) : Except Error (List Endpoint) := do
  let paths := (api.document.paths?.getD []).filter fun (path, _) => !isExtension path
  let found ← paths.mapM fun (path, value) => api.pathEndpoints path value
  return found.flatten

/-- The type of a component schema in a view. -/
def schemaType (api : Api) (view : View) (schema : Schema) : TypeExpr :=
  (api.lower { view } schema).getD .unknown

/-- The named types of a component schema: its own, and a variant for each view that hides something
of it. -/
def namedTypes (api : Api) (name : String) (schema : Schema) : List NamedType :=
  ⟨name, api.schemaType .full schema⟩
    :: (variant .request .readOnly ++ variant .response .writeOnly)
where
  /-- The variant for a view, if the schema holds what it hides. -/
  variant (view : View) (access : Access) : List NamedType :=
    if api.document.holds access schema then [⟨name ++ view.suffix, api.schemaType view schema⟩]
    else []

/-- The named types of all component schemas, in declaration order. -/
def schemas (api : Api) : List NamedType :=
  api.document.schemas.flatMap fun (name, value) => api.namedTypes name (.ofJson value)

/-- Resolves a whole document. -/
def describe (api : Api) : Except Error Description := do
  let endpoints ← api.endpoints
  return { schemas := api.schemas, endpoints }

end Api

end OpenApi
