import OpenApi.Proofs.Bundle.Whole
import OpenApi.Proofs.Endpoint.Reading
import OpenApi.Proofs.Schema.Views

/-!
# What a document declares and what its description defines

The types of a description are lowered from schemas that the document declares: its component
schemas, and the schemas of the parameters, request bodies and responses of its operations.
`Api.Types` lists the types of the latter with the schemas that they come from, and
`types_of_mem_endpoints` says that a description has no others.

A link to a component schema has the form `#/components/schemas/` and one token. It names a
definition of the description in every view: `exists_definition`.
-/

namespace OpenApi

/-! ## Computations that succeed -/

theorem Except.exists_of_bind_eq_ok {ε α β : Type} {x : Except ε α} {f : α → Except ε β} {b : β}
    (h : x >>= f = .ok b) : ∃ a, x = .ok a ∧ f a = .ok b := by
  cases x with
  | error error => cases h
  | ok a => exact ⟨a, rfl, h⟩

theorem Except.exists_of_mem_mapM {ε α β : Type} {f : α → Except ε β} {list : List α}
    {results : List β} (h : list.mapM f = .ok results) {b : β} (hb : b ∈ results) :
    ∃ a ∈ list, f a = .ok b := by
  induction list generalizing results with
  | nil =>
      rw [List.mapM_nil] at h
      cases h
      simp at hb
  | cons a rest ih =>
      rw [List.mapM_cons] at h
      obtain ⟨b', ha, h⟩ := Except.exists_of_bind_eq_ok h
      obtain ⟨results', hr, h⟩ := Except.exists_of_bind_eq_ok h
      cases h
      rcases List.mem_cons.mp hb with rfl | hb
      · exact ⟨a, List.mem_cons_self, ha⟩
      · obtain ⟨a', hm, ha'⟩ := ih hr hb
        exact ⟨a', List.mem_cons_of_mem _ hm, ha'⟩

/-! ## Declared schemas -/

/-- An operation of a document, with the path item that declares it. -/
def Document.HasOperation (doc : Document) (item : PathItem) (operation : Operation) : Prop :=
  ∃ path value method, (path, value) ∈ doc.paths?.getD [] ∧ Api.isExtension path = false ∧
    doc.pathItem path value = .ok item ∧ (method, operation) ∈ item.operations

/-- The schemas that a document declares for the data of its operations, by the view that the data is
seen in; where data has no schema, it is declared with none. -/
inductive Document.Declares (doc : Document) : View → Option Json → Prop where
  | parameter {item operation written object} (ho : doc.HasOperation item operation)
      (hw : written ∈ item.parameters ++ operation.parameters)
      (hc : doc.component .parameter ParameterObject.ofJson? written = .ok object) :
      Declares doc .full (Api.parameterSchema object)
  | body {item operation written object} (ho : doc.HasOperation item operation)
      (hw : operation.requestBody = some written)
      (hc : doc.component .requestBody RequestBodyObject.ofJson? written = .ok object) :
      Declares doc .request object.content.jsonSchema?
  | response {item operation key written object content} (ho : doc.HasOperation item operation)
      (hw : (key, written) ∈ operation.responses)
      (hc : doc.component .response ResponseObject.ofJson? written = .ok object)
      (hcontent : object.content = some content) :
      Declares doc .response content.jsonSchema?

/-- The schema values of a document: its component schemas and what it declares for data. -/
def Document.HasSchema (doc : Document) (value : Json) : Prop :=
  (∃ name, (name, value) ∈ doc.schemas) ∨ ∃ view, doc.Declares view (some value)

/-- The types of the data that is seen in a view: of parameters, request bodies or responses. -/
def Endpoint.types (endpoint : Endpoint) : View → List TypeExpr
  | .full => endpoint.parameters.map Parameter.type
  | .request => (endpoint.requestBody.map RequestBody.type).toList
  | .response => endpoint.responses.map Response.type

/-- The type of data that is seen in a view, with the schema that it was lowered from; a response
without content is null. -/
inductive Api.Types (api : Api) : View → Option Json → TypeExpr → Prop where
  | lowered {view schema} (h : api.document.Declares view schema) :
      Types api view schema (api.typeOf { qualified := true, view } schema)
  | noContent : Types api .response none .null

theorem references_subset_of_mem_asObject? {value child : Json} {members : Members} {name : String}
    (h : value.asObject? = some members) (hm : (name, child) ∈ members) :
    child.references ⊆ value.references := by
  cases value with
  | object found =>
      cases h
      exact Json.references_subset_of_mem_object hm
  | _ => cases h

/-- The references of a path item are references of the document. -/
theorem references_subset_of_mem_paths {doc : Document} {path : String} {child : Json}
    (hm : (path, child) ∈ doc.paths?.getD []) : child.references ⊆ doc.root.references := by
  cases hp : doc.paths? with
  | none =>
      rw [hp] at hm
      simp at hm
  | some found =>
      rw [hp] at hm
      obtain ⟨own, hown, hfound⟩ := Option.bind_eq_some_iff.mp hp
      rw [Json.member?_eq_step?] at hown
      exact List.Subset.trans (references_subset_of_mem_asObject? hfound hm)
        (Json.references_subset_of_step? hown)

/-- The references of a component schema are references of the document. -/
theorem references_subset_of_mem_schemas {doc : Document} {name : String} {value : Json}
    (hm : (name, value) ∈ doc.schemas) : value.references ⊆ doc.root.references :=
  references_subset_of_mem_componentSchemas hm

theorem Document.HasOperation.within {doc : Document} {item : PathItem} {operation : Operation}
    (h : doc.HasOperation item operation) :
    item.Within doc.root.references ∧ operation.Within doc.root.references := by
  obtain ⟨path, child, method, hm, _, hi, ho⟩ := h
  have hwithin := within_of_pathItem (references_subset_of_mem_paths hm) hi
  exact ⟨hwithin, hwithin.operations _ ho⟩

/-- Every reference of a schema of the document is a reference of the document. -/
theorem Document.HasSchema.references_subset {doc : Document} {value : Json}
    (h : doc.HasSchema value) : value.references ⊆ doc.root.references := by
  rcases h with ⟨name, hm⟩ | ⟨view, hd⟩
  · exact references_subset_of_mem_schemas hm
  · generalize hs : some value = schema at hd
    cases hd with
    | parameter ho hw hc =>
        obtain ⟨hi, hop⟩ := ho.within
        have hwritten := (List.mem_append.mp hw).elim (hi.parameters _) (hop.parameters _)
        exact (of_component reads_parameter hwritten hc).schema? hs.symm
    | body ho hw hc =>
        have hwithin := of_component reads_requestBody (ho.within.2.requestBody _ hw) hc
        exact Content.Within.jsonSchema? hwithin hs.symm
    | response ho hw hc hcontent =>
        have hwithin := of_component reads_response (ho.within.2.responses _ hw) hc
        exact (hwithin _ hcontent).jsonSchema? hs.symm

namespace Api

section

variable {api : Api} {item : PathItem} {operation : Operation}

theorem types_of_mem_parameters {allRequired : Bool} {written : List (OrReference ParameterObject)}
    {parameters : List Parameter} (h : api.parameters allRequired written = .ok parameters)
    (ho : api.document.HasOperation item operation)
    (hw : written = item.parameters ++ operation.parameters) {parameter : Parameter}
    (hm : parameter ∈ parameters) : ∃ schema, api.Types .full schema parameter.type := by
  obtain ⟨objects, hobjects, h⟩ := Except.exists_of_bind_eq_ok h
  cases h
  obtain ⟨object, hobject, hp⟩ := List.mem_filterMap.mp hm
  obtain ⟨reference, hr, hc⟩ := Except.exists_of_mem_mapM hobjects hobject
  obtain ⟨location, _, rfl⟩ := Option.map_eq_some_iff.mp hp
  exact ⟨_, .lowered (.parameter ho (hw ▸ hr) hc)⟩

theorem types_of_requestBody {written : OrReference RequestBodyObject} {body : RequestBody}
    (h : api.requestBody written = .ok body) (ho : api.document.HasOperation item operation)
    (hw : operation.requestBody = some written) : ∃ schema, api.Types .request schema body.type := by
  obtain ⟨object, hc, h⟩ := Except.exists_of_bind_eq_ok h
  cases h
  exact ⟨_, .lowered (.body ho hw hc)⟩

theorem types_of_response {key : String} {written : OrReference ResponseObject}
    {response : Response} (h : api.response key written = .ok response)
    (ho : api.document.HasOperation item operation) (hw : (key, written) ∈ operation.responses) :
    ∃ schema, api.Types .response schema response.type := by
  obtain ⟨object, hc, h⟩ := Except.exists_of_bind_eq_ok h
  cases h
  dsimp only [responseType]
  cases hcontent : object.content with
  | none => exact ⟨none, .noContent⟩
  | some content => exact ⟨_, .lowered (.response ho hw hc hcontent)⟩

theorem types_of_endpoint {path : String} {method : Method} {endpoint : Endpoint}
    (h : api.endpoint path item.parameters method operation = .ok endpoint)
    (ho : api.document.HasOperation item operation) {view : View} {type : TypeExpr}
    (ht : type ∈ endpoint.types view) : ∃ schema, api.Types view schema type := by
  obtain ⟨parameters, hparameters, h⟩ := Except.exists_of_bind_eq_ok h
  obtain ⟨body, hbody, h⟩ := Except.exists_of_bind_eq_ok h
  obtain ⟨responses, hresponses, h⟩ := Except.exists_of_bind_eq_ok h
  cases h
  -- parameters, request body and responses are seen in one view each
  cases view with
  | full =>
      obtain ⟨parameter, hm, rfl⟩ := List.mem_map.mp ht
      exact types_of_mem_parameters hparameters ho rfl hm
  | request =>
      obtain ⟨resolved, hr, rfl⟩ := Option.map_eq_some_iff.mp (Option.mem_toList.mp ht)
      cases hr
      cases hw : operation.requestBody with
      | none =>
          rw [hw] at hbody
          cases hbody
      | some written =>
          rw [hw] at hbody
          obtain ⟨resolved', hresolved, hbody⟩ := Except.exists_of_bind_eq_ok hbody
          cases hbody
          exact types_of_requestBody hresolved ho hw
  | response =>
      obtain ⟨response, hm, rfl⟩ := List.mem_map.mp ht
      obtain ⟨⟨key, written⟩, hw, hr⟩ := Except.exists_of_mem_mapM hresponses hm
      exact types_of_response hr ho hw

/-- The endpoints of a description have only types of declared data. -/
theorem types_of_mem_endpoints {endpoints : List Endpoint} (h : api.endpoints = .ok endpoints)
    {endpoint : Endpoint} (he : endpoint ∈ endpoints) {view : View} {type : TypeExpr}
    (ht : type ∈ endpoint.types view) : ∃ schema, api.Types view schema type := by
  obtain ⟨found, hfound, h⟩ := Except.exists_of_bind_eq_ok h
  cases h
  obtain ⟨declared, hd, he⟩ := List.mem_flatten.mp he
  obtain ⟨⟨path, value⟩, hpath, hp⟩ := Except.exists_of_mem_mapM hfound hd
  obtain ⟨item, hitem, hp⟩ := Except.exists_of_bind_eq_ok hp
  obtain ⟨⟨method, operation⟩, ho, hendpoint⟩ := Except.exists_of_mem_mapM hp he
  obtain ⟨hpath, hx⟩ := List.mem_filter.mp hpath
  have hoperation : api.document.HasOperation item operation :=
    ⟨path, value, method, hpath, by simpa using hx, hitem, ho⟩
  exact types_of_endpoint hendpoint hoperation ht

end

end Api

/-! ## Links to component schemas -/

/-- The text of a reference to a component schema: `#/components/schemas/` and one token. -/
def IsComponentLink (text : String) : Prop :=
  ∃ token : String, '/' ∉ token.toList ∧ text = "#/components/schemas/" ++ token

/-- Whether a text is a link to a component schema. -/
def isComponentLink (text : String) : Bool :=
  "#/components/schemas/".toList.isPrefixOf text.toList && !(text.toList.drop 21).contains '/'

theorem isComponentLink_iff {text : String} : isComponentLink text = true ↔ IsComponentLink text := by
  -- the text before the token has 21 characters
  have hdrop : ∀ token : List Char, ("#/components/schemas/".toList ++ token).drop 21 = token :=
    fun _ => rfl
  rw [isComponentLink, Bool.and_eq_true, List.isPrefixOf_iff_prefix]
  constructor
  · rintro ⟨⟨token, ht⟩, hslash⟩
    rw [← ht, hdrop] at hslash
    refine ⟨String.ofList token, ?_, ?_⟩
    · rw [String.toList_ofList]
      simpa using hslash
    · rw [← String.toList_inj, String.toList_append, ← ht]
      exact congrArg _ String.toList_ofList.symm
  · rintro ⟨token, htoken, rfl⟩
    rw [String.toList_append]
    refine ⟨List.prefix_append _ _, ?_⟩
    rw [hdrop]
    simpa using htoken

instance (text : String) : Decidable (IsComponentLink text) :=
  decidable_of_iff _ isComponentLink_iff

section

variable {token : String}

theorem componentLink_eq_hash (token : String) :
    "#/components/schemas/" ++ token = "#" ++ (Pointer.text ⟨["components", "schemas", token]⟩) := by
  rw [← String.toList_inj, String.toList_append, String.toList_append, Pointer.toList_text]
  simp only [List.flatMap_cons, List.flatMap_nil, List.append_nil]
  rfl

theorem parse_componentLink (token : String) :
    Reference.parse ("#/components/schemas/" ++ token)
      = ⟨"", some (Pointer.text ⟨["components", "schemas", token]⟩)⟩ := by
  rw [componentLink_eq_hash, Reference.parse_hash]

theorem slash_notMem_componentTokens (h : '/' ∉ token.toList) :
    ∀ part ∈ ["components", "schemas", token], '/' ∉ part.toList := by
  simp only [List.forall_mem_cons]
  exact ⟨by decide, by decide, h, List.forall_mem_nil _⟩

theorem parse?_componentPointer (h : '/' ∉ token.toList) :
    Pointer.parse? (Pointer.text ⟨["components", "schemas", token]⟩)
      = some ⟨["components", "schemas", token]⟩ :=
  Pointer.parse?_text (slash_notMem_componentTokens h) (by simp)

theorem splitAt_componentLink (h : '/' ∉ token.toList) :
    Text.splitAt '/' ("components/schemas/" ++ token).toList
      = ["components".toList, "schemas".toList, token.toList] := by
  rw [String.toList_append]
  show Text.splitAt '/' ("components".toList ++ '/' :: ("schemas".toList ++ '/' :: token.toList)) = _
  rw [Text.splitAt_append (by decide), Text.splitAt_append (by decide), Text.splitAt_of_notMem h]

theorem toList_componentPointer (token : String) :
    (Pointer.text ⟨["components", "schemas", token]⟩).toList
      = '/' :: ("components/schemas/" ++ token).toList := by
  rw [Pointer.toList_text, String.toList_append]
  simp only [List.flatMap_cons, List.flatMap_nil, List.append_nil]
  rfl

theorem typeName_componentLink (h : '/' ∉ token.toList) :
    Reference.typeName ("#/components/schemas/" ++ token) = Pointer.decodeToken token := by
  rw [Reference.typeName, parse_componentLink]
  dsimp only [Option.getD_some]
  rw [toList_componentPointer, Text.lastPiece, Text.splitAt, if_pos rfl, splitAt_componentLink h]
  show Pointer.decodeToken (String.ofList token.toList) = _
  rw [String.ofList_toList]

theorem isComponentSchema_componentLink (h : '/' ∉ token.toList) :
    isComponentSchema ("#/components/schemas/" ++ token) = true := by
  have hdrop : (Pointer.text ⟨["components", "schemas", token]⟩).toList.dropWhile (· = '/')
      = ("components/schemas/" ++ token).toList := by
    rw [toList_componentPointer, String.toList_append]
    rfl
  rw [isComponentSchema, parse_componentLink]
  dsimp only
  rw [hdrop, splitAt_componentLink h]
  rfl

/-- A link to a component schema designates the component that its token names. -/
theorem resolveLocal?_componentLink (h : '/' ∉ token.toList) {tree : Json} {declared : Members}
    (hd : tree.componentSchemas? = some declared) :
    tree.resolveLocal? ("#/components/schemas/" ++ token)
      = declared.lookup (Pointer.decodeToken token) := by
  have hmember : ∀ {value child : Json} {name : String}, value.member? name = some child →
      Pointer.decodeToken name = name → value.child? name = some child := by
    intro value child name hm hn
    cases value with
    | object members =>
        rw [Json.child?, hn]
        exact hm
    | _ => cases hm
  rw [Json.componentSchemas?, Option.bind_eq_some_iff] at hd
  obtain ⟨schemas, hs, hschemas⟩ := hd
  obtain ⟨components, hc, hs⟩ := Option.bind_eq_some_iff.mp hs
  cases schemas with
  | object found =>
      cases hschemas
      rw [Json.resolveLocal?, parse_componentLink]
      show tree.resolve? (Pointer.text ⟨["components", "schemas", token]⟩) = _
      rw [Json.resolve?, parse?_componentPointer h, Option.bind_some, Json.follow?,
        hmember hc (by decide), Option.bind_some, Json.follow?, hmember hs (by decide),
        Option.bind_some, Json.follow?, Json.child?]
      cases declared.lookup (Pointer.decodeToken token) <;> rfl
  | _ => cases hschemas

end

/-! ## Definitions -/

namespace Api

variable {api : Api} {declared : Members}

theorem full_mem_namedTypes (api : Api) (name : String) (schema : Schema) :
    ⟨name, api.schemaType .full schema⟩ ∈ api.namedTypes name schema :=
  List.mem_cons_self

theorem variant_mem_namedTypes {view : View} {access : Access} (hview : view.hidden? = some access)
    (name : String) {schema : Schema} (h : api.document.holds access schema = true) :
    ⟨name ++ view.suffix, api.schemaType view schema⟩ ∈ api.namedTypes name schema := by
  unfold namedTypes
  cases view with
  | full => cases hview
  | request =>
      cases hview
      refine List.mem_cons_of_mem _ (List.mem_append_left _ ?_)
      rw [namedTypes.variant, if_pos h]
      exact List.mem_singleton_self _
  | response =>
      cases hview
      refine List.mem_cons_of_mem _ (List.mem_append_right _ ?_)
      rw [namedTypes.variant, if_pos h]
      exact List.mem_singleton_self _

/-- A component that holds nothing of what a view hides has one type, in that view and as a whole. -/
theorem schemaType_eq_full {view : View} {access : Access} (hview : view.hidden? = some access)
    {schema : Schema} (h : api.document.holds access schema = false) :
    api.schemaType view schema = api.schemaType .full schema := by
  rw [schemaType, schemaType, lower_eq_of_not_holds hview h]

/-- What a link to a component schema is called in a view is the name of a definition, and that
definition is the type of the component in that view. -/
theorem exists_definition (hd : api.document.root.componentSchemas? = some declared) {text : String}
    (hl : IsComponentLink text) (hr : (api.document.root.resolveLocal? text).isSome = true)
    (view : View) :
    ∃ component value, (component, value) ∈ api.document.schemas ∧
      ⟨Reference.typeName text ++ api.variantSuffix view text, api.schemaType view (.ofJson value)⟩
        ∈ api.namedTypes component (.ofJson value) := by
  obtain ⟨token, htoken, rfl⟩ := hl
  have hresolve := resolveLocal?_componentLink htoken hd
  obtain ⟨value, hvalue⟩ := Option.isSome_iff_exists.mp hr
  rw [hvalue] at hresolve
  have hschema : api.document.schemaAt? ("#/components/schemas/" ++ token)
      = some (.ofJson value) := by
    rw [Document.schemaAt?, Document.resolve?, hvalue, Option.map_some]
  refine ⟨Pointer.decodeToken token, value, ?_, ?_⟩
  · rw [Document.schemas, hd]
    exact mem_of_lookup hresolve.symm
  · rw [typeName_componentLink htoken, variantSuffix, hschema,
      isComponentSchema_componentLink htoken]
    cases hview : view.hidden? with
    | none =>
        cases view with
        | full =>
            rw [String.append_empty]
            exact full_mem_namedTypes api _ _
        | request | response => cases hview
    | some access =>
        dsimp only
        rw [Bool.true_and]
        cases hh : api.document.holds access (.ofJson value) with
        | true => exact variant_mem_namedTypes hview _ hh
        | false =>
            -- the full definition is what the view sees
            rw [schemaType_eq_full hview hh]
            exact (String.append_empty (s := _)).symm ▸ full_mem_namedTypes api _ _

/-! ## Falling back to the base definition -/

/-- Falling back to the base name is exact: what holds nothing of what a view hides is lowered in
that view as it is in full, and a component that has no variant for the view has a base definition
that is what the variant would be. -/
theorem lower_eq_and_base_mem_schemas (api : Api) {view : View} {access : Access}
    (hview : view.hidden? = some access) :
    (∀ qualified schema, api.document.holds access schema = false →
      api.lower { qualified, view } schema = api.lower { qualified } schema) ∧
    ∀ name value, (name, value) ∈ api.document.schemas →
      name ++ view.suffix ∉ (api.namedTypes name (.ofJson value)).map NamedType.name →
      api.schemaType view (.ofJson value) = api.schemaType .full (.ofJson value) ∧
        ⟨name, api.schemaType view (.ofJson value)⟩ ∈ api.schemas := by
  refine ⟨fun qualified schema h => lower_eq_of_not_holds hview h, fun name value hm hno => ?_⟩
  have hholds : api.document.holds access (.ofJson value) = false := by
    cases hh : api.document.holds access (.ofJson value) with
    | false => rfl
    | true => exact absurd (List.mem_map.mpr ⟨_, variant_mem_namedTypes hview name hh, rfl⟩) hno
  have hfull := schemaType_eq_full hview hholds
  refine ⟨hfull, ?_⟩
  rw [hfull]
  exact List.mem_flatMap.mpr ⟨(name, value), hm, full_mem_namedTypes api name _⟩

/-- Accounts that lead to each other, each with a secret that is written and never read. -/
def accounts : Api :=
  ⟨⟨"mem:/accounts", .object [("openapi", .string "3.0.0"),
    ("components", .object [("schemas", .object [
      ("Account", .object [("type", .string "object"), ("properties", .object [
        ("parent", .object [("$ref", .string "#/components/schemas/Account")]),
        ("secret", .object [("type", .string "string"), ("writeOnly", .bool true)])])])])])]⟩, {}⟩

/-- An account has no variant for requests, and its base definition is what it would be. -/
theorem base_mem_schemas_accounts :
    ∃ name value, (name, value) ∈ accounts.document.schemas ∧
      accounts.document.holds .readOnly (.ofJson value) = false ∧
      accounts.document.holds .writeOnly (.ofJson value) = true ∧
      accounts.lower { view := .request } (.ofJson value) = accounts.lower {} (.ofJson value) ∧
      ⟨name, accounts.schemaType .request (.ofJson value)⟩ ∈ accounts.schemas := by
  obtain ⟨hlower, hbase⟩ := @lower_eq_and_base_mem_schemas accounts .request _ rfl
  refine ⟨"Account", _, List.mem_singleton_self _, rfl, rfl, hlower false _ rfl, ?_⟩
  exact (hbase "Account" _ (List.mem_singleton_self _) (by decide)).2

end Api

end OpenApi
