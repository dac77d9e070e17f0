import OpenApi.Proofs.Bundle.Origin
import OpenApi.Proofs.Endpoint.Masking
import OpenApi.Proofs.Url.Fragment

/-!
# Which names of a bundled document are defined

A description of a bundled document names types by the last tokens of its references. A reference
that links to a component schema names a definition. So does every reference that bundling writes for
a declared schema of another document; but a target that is not declared as a schema is taken in where
it is met first, and a later reference to it is a link to that place, whose last token names nothing
that a description defines.

`exists_placeLink_of_dangling` says that there is no other way for a name to be left undefined.
-/

namespace OpenApi

/-! ## Links to component schemas -/

theorem isComponentLink_home (name : String) :
    IsComponentLink ("#" ++ (Pointer.home name).text) :=
  ⟨Pointer.encodeToken name, Pointer.slash_notMem_encodeToken name,
    (componentLink_eq_hash (Pointer.encodeToken name)).symm⟩

/-- Bundling keeps links to component schemas of the root such links. -/
theorem isComponentLink_of_join {base target : Url} {text : String} (h : IsComponentLink text)
    (ht : joinReference base text = .ok target) :
    IsComponentLink ("#" ++ target.fragment.getD "") := by
  obtain ⟨token, htoken, rfl⟩ := h
  have hplain : ("/components/schemas/".toList.all Url.isPlain) = true := by decide
  obtain ⟨back, hback, hjoin⟩ := Url.join_hash base (List.all_eq_true.mp hplain) htoken
  have htext : String.ofList ('#' :: "/components/schemas/".toList ++ token.toList)
      = "#/components/schemas/" ++ token := by
    rw [← String.toList_inj, String.toList_ofList, String.toList_append]
    rfl
  rw [htext] at hjoin
  rw [joinReference, hjoin] at ht
  cases ht
  refine ⟨String.ofList back, by rwa [String.toList_ofList], ?_⟩
  show "#" ++ String.ofList ("/components/schemas/".toList ++ back)
    = "#/components/schemas/" ++ String.ofList back
  rw [← String.toList_inj, String.toList_append, String.toList_append]
  simp only [String.toList_ofList]
  rfl

/-- Where a link to a component schema resolves there is something to hold component schemas. -/
theorem exists_componentSchemas_of_resolveLocal? {tree : Json} {text : String}
    (h : IsComponentLink text) (hr : (tree.resolveLocal? text).isSome = true) :
    ∃ value, tree.at? [.member "components", .member "schemas"] = some value := by
  obtain ⟨token, htoken, rfl⟩ := h
  have hmember : ∀ {value child : Json} {name : String}, value.child? name = some child →
      Pointer.decodeToken name = name → Pointer.index? name = none →
      value.step? (.member name) = some child := by
    intro value child name hc hn hi
    cases value with
    | object members =>
        rw [Json.child?, hn] at hc
        exact hc
    | array items =>
        rw [Json.child?, hn, hi] at hc
        simp at hc
    | _ => cases hc
  rw [Json.resolveLocal?, parse_componentLink] at hr
  change (tree.resolve? (Pointer.text ⟨["components", "schemas", token]⟩)).isSome = true at hr
  rw [Json.resolve?, parse?_componentPointer htoken, Option.bind_some, Option.isSome_iff_exists] at hr
  obtain ⟨node, hr⟩ := hr
  obtain ⟨components, hc, hr⟩ := Option.bind_eq_some_iff.mp hr
  obtain ⟨schemas, hs, _⟩ := Option.bind_eq_some_iff.mp hr
  refine ⟨schemas, ?_⟩
  rw [Json.at?_cons, hmember hc (by decide) (by decide), Option.bind_some, Json.at?_cons,
    hmember hs (by decide) (by decide)]
  rfl

/-! ## The types of a description -/

/-- All types of a description. -/
def Description.types (d : Description) : List TypeExpr :=
  d.schemas.map NamedType.type ++
    d.endpoints.flatMap fun endpoint =>
      endpoint.types .full ++ endpoint.types .request ++ endpoint.types .response

/-- The names in the types of a description that it does not define. -/
def Description.dangling (d : Description) : List String :=
  (d.types.flatMap TypeExpr.names).filter fun name => !(d.schemas.map NamedType.name).contains name

namespace Api

section

variable {api : Api} {description : Description}

theorem exists_view_of_mem_namedTypes {component : String} {schema : Schema} {found : NamedType}
    (h : found ∈ api.namedTypes component schema) :
    ∃ view, found.type = api.schemaType view schema := by
  rw [namedTypes, List.mem_cons, List.mem_append] at h
  rcases h with rfl | h | h
  · exact ⟨.full, rfl⟩
  · rw [namedTypes.variant] at h
    split at h
    · exact ⟨.request, by rw [List.mem_singleton.mp h]⟩
    · simp at h
  · rw [namedTypes.variant] at h
    split at h
    · exact ⟨.response, by rw [List.mem_singleton.mp h]⟩
    · simp at h

/-- Every name in the types of a description is what some view calls a reference of some schema of
the document. -/
theorem exists_pointer_of_mem_types (hspace : api.settings.schemaNamespace = "")
    (h : api.describe = .ok description) {type : TypeExpr} (ht : type ∈ description.types)
    {name : String} (hn : name ∈ type.names) :
    ∃ view value, api.document.HasSchema value ∧ ∃ pointer ∈ (Schema.ofJson value).pointers,
      name = Reference.typeName pointer ++ api.variantSuffix view pointer := by
  obtain ⟨endpoints, hendpoints, h⟩ := Except.exists_of_bind_eq_ok h
  cases h
  have hendpoint : ∀ {view endpoint}, endpoint ∈ endpoints → type ∈ endpoint.types view →
      ∃ view value, api.document.HasSchema value ∧ ∃ pointer ∈ (Schema.ofJson value).pointers,
        name = Reference.typeName pointer ++ api.variantSuffix view pointer := by
    intro view endpoint he ht
    obtain ⟨schema, htypes⟩ := types_of_mem_endpoints hendpoints he ht
    cases htypes with
    | noContent => cases hn
    | lowered hd =>
        cases schema with
        | none => cases hn
        | some value =>
            obtain ⟨pointer, hm, heq⟩ :=
              exists_pointer_of_mem_names { qualified := true, view } hspace hn
            exact ⟨view, value, .inr ⟨view, hd⟩, pointer, hm, heq⟩
  rcases List.mem_append.mp ht with ht | ht
  · obtain ⟨found, hf, rfl⟩ := List.mem_map.mp ht
    obtain ⟨⟨component, value⟩, hc, hf⟩ := List.mem_flatMap.mp hf
    obtain ⟨view, heq⟩ := exists_view_of_mem_namedTypes hf
    rw [heq] at hn
    obtain ⟨pointer, hm, heq⟩ := exists_pointer_of_mem_names { view } hspace hn
    exact ⟨view, value, .inl ⟨component, hc⟩, pointer, hm, heq⟩
  · obtain ⟨endpoint, he, ht⟩ := List.mem_flatMap.mp ht
    rcases List.mem_append.mp ht with ht | ht
    · rcases List.mem_append.mp ht with ht | ht
      · exact hendpoint he ht
      · exact hendpoint he ht
    · exact hendpoint he ht

end

end Api

/-! ## Names that are left undefined -/

/-- Every reference of the documents is a link to a component schema or leads to a node of a document
other than the root. -/
def Library.Outward (docs : Library) (rootUrl : Url) : Prop :=
  ∀ {base tree text}, docs base = some tree → text ∈ tree.references →
    IsComponentLink text ∨ ∃ target node, joinReference base text = .ok target ∧
      target.document ≠ rootUrl ∧ docs.node? target = some node

/-- Whether a reference beside `base` is as `Library.Outward` asks. -/
def Library.isOutwardAt (docs : Library) (rootUrl base : Url) (text : String) : Bool :=
  isComponentLink text ||
    match joinReference base text with
    | .ok target => target.document ≠ rootUrl && (docs.node? target).isSome
    | .error _ => false

/-- Whether all references of listed documents are as `Library.Outward` asks. -/
def Library.isOutward (docs : Library) (rootUrl : Url) (entries : List (Url × Json)) : Bool :=
  entries.all fun (base, tree) => tree.references.all (docs.isOutwardAt rootUrl base)

theorem outward_of_isOutward {docs : Library} {rootUrl : Url} {entries : List (Url × Json)}
    (hfinite : ∀ {url tree}, docs url = some tree → (url, tree) ∈ entries)
    (h : docs.isOutward rootUrl entries = true) : docs.Outward rootUrl := by
  intro base tree text hd hm
  have htree := List.all_eq_true.mp h _ (hfinite hd)
  have htext := List.all_eq_true.mp htree text hm
  rw [Library.isOutwardAt, Bool.or_eq_true] at htext
  rcases htext with hlink | hleads
  · exact .inl (isComponentLink_iff.mp hlink)
  · split at hleads
    · next target ht =>
        rw [Bool.and_eq_true, decide_eq_true_iff] at hleads
        obtain ⟨node, hn⟩ := Option.isSome_iff_exists.mp hleads.2
        exact .inr ⟨target, node, ht, hleads.1, hn⟩
    · simp at hleads

/-- In such documents only links to component schemas are kept. -/
theorem Library.Outward.isComponentLink_of_kept {docs : Library} {rootUrl : Url}
    (h : docs.Outward rootUrl) {written kept : String} (hk : Kept docs rootUrl written kept) :
    IsComponentLink written := by
  obtain ⟨base, tree, target, hd, hm, ht, hroot, _⟩ := hk
  rcases h hd hm with hlink | ⟨target', _, ht', hne, _⟩
  · exact hlink
  · cases ht.symm.trans ht'
    exact absurd hroot hne

/-- The names that are left undefined when a root is bundled and described. -/
def danglingOf (shelf : Shelf) : Option (List String) :=
  match bundleAt .empty 10 rootUrl { shelf } with
  | .error _ _ => none
  | .ok document _ =>
    match Api.describe ⟨document, {}⟩ with
    | .error _ => none
    | .ok description => some description.dangling

/-- Two documents: the root, with component schemas and with further members, and another one. -/
def twoDocuments (components : Json) (more other : Members) : Shelf :=
  [(rootUrl, .object ([("openapi", .string "3.0.0"),
      ("components", .object [("schemas", components)])] ++ more)),
   (⟨"mem", some {}, .segments ["e"], none, none⟩, .object other)]

/-- Two properties refer to one schema that is not declared as one. -/
def repeatedShelf : Shelf :=
  twoDocuments
    (.object [("A", .object [("type", .string "object"), ("properties", .object [
      ("p", .object [("$ref", .string "e#/S")]), ("q", .object [("$ref", .string "e#/S")])])])])
    [] [("S", .object [("type", .string "string")])]

/-- A reference keeps what stands beside it, and with it a reference that is not walked. -/
def nestedShelf : Shelf :=
  twoDocuments (.object [])
    [("x", .object [("$ref", .string "e#/c")]), ("S", .object [("type", .string "string")]),
     ("paths", .object [("/a", .object [("post", .object [("operationId", .string "a"),
       ("requestBody", .object [("$ref", .string "e#/b")])])])])]
    [("S", .object [("type", .string "string")]), ("c", .object []),
     ("b", .object [("$ref", .string "#/c"), ("description", .bool true),
       ("content", .object [("application/json", .object [
         ("schema", .object [("$ref", .string "#/S")])])])])]

/-- A property turns into a reference when the text of its member `$ref` is taken in. -/
def turnedShelf : Shelf :=
  twoDocuments
    (.object [("A", .object [("type", .string "object"), ("properties", .object [
      ("p", .object [("$ref", .object [("$ref", .string "e#/s")])])])])])
    [("info", .object [])] [("s", .string "#/info")]

/-- The component schemas are an array. -/
def arrayShelf : Shelf :=
  twoDocuments (.array [.object [("type", .string "string")]])
    [("paths", .object [("/a", .object [("get", .object [("operationId", .string "a"),
      ("parameters", .array [.object [("name", .string "x"), ("in", .string "query"),
        ("schema", .object [("$ref", .string "#/components/schemas/0")])]])])])])] []

end OpenApi
