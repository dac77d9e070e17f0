import Mathlib.Data.List.Nodup
import Mathlib.Data.List.Pairwise
import OpenApi.Proofs.Endpoint.Declarations

/-!
# What a view hides is met in none of its types

The type of a request body names definitions, these name further ones, and so on, perhaps in circles.
`Api.Met` is everything that is met on the way, each type with the schema that it describes. Whatever
is met describes its schema in the view that it started in, `Api.Describes`: a name in a type is
that of a reference, and what is defined under it is the target of the reference in the same view.
Where the target has no variant of its own, it is because nothing hidden is reachable from it, and
then its full definition is what the view sees.

`names_and_records_of_met` draws the conclusion for whole descriptions.
-/

namespace OpenApi

namespace Api

/-! ## Types that are met -/

/-- The types that are met from one type when names are replaced by what is defined under them, each
with the schema that it was lowered from. -/
inductive Met (api : Api) (schema : Schema) (type : TypeExpr) : Schema → TypeExpr → Prop where
  | start : Met api schema type schema type
  | definition {schema' type' component value name found} (h : Met api schema type schema' type')
      (hn : name ∈ type'.names) (hc : (component, value) ∈ api.document.schemas)
      (hd : ⟨name, found⟩ ∈ api.namedTypes component (.ofJson value)) :
      Met api schema type (.ofJson value) found

/-- A type describes a schema in a view: its names are what the view calls the references of the
schema, which are links to component schemas, and its records list what the view shows of the objects.
-/
structure Describes (api : Api) (view : View) (schema : Schema) (type : TypeExpr) : Prop where
  names : ∀ name ∈ type.names, ∃ pointer ∈ schema.pointers,
    name = Reference.typeName pointer ++ api.variantSuffix view pointer
  records : type.records = schema.shownObjects view
  links : ∀ pointer ∈ schema.pointers,
    IsComponentLink pointer ∧ (api.document.root.resolveLocal? pointer).isSome = true

section

variable {api : Api} {view : View} {schema : Schema} {type : TypeExpr}

/-- Every name in a lowered type is what the view calls a reference of the schema. -/
theorem exists_pointer_of_mem_names (context : Context) (hspace : api.settings.schemaNamespace = "")
    {name : String} (h : name ∈ ((api.lower context schema).getD .unknown).names) :
    ∃ pointer ∈ schema.pointers,
      name = Reference.typeName pointer ++ api.variantSuffix context.view pointer := by
  rw [TypeExpr.names, collect_lower] at h
  obtain ⟨pointer, hm, hname⟩ := Schema.mem_of_mem_collect schema h
  refine ⟨pointer, hm, ?_⟩
  rw [referenceType, if_neg (by simp [hspace]), TypeExpr.collect] at hname
  exact List.mem_singleton.mp hname

/-- The records of a lowered type list what the view shows of the objects of the schema. -/
theorem records_lower (context : Context) (schema : Schema) :
    ((api.lower context schema).getD .unknown).records = schema.shownObjects context.view := by
  rw [TypeExpr.records, collect_lower]
  rfl

/-- A lowered type describes the schema that it was lowered from. -/
theorem describes_lower (hspace : api.settings.schemaNamespace = "") (qualified : Bool)
    (hlinks : ∀ pointer ∈ schema.pointers,
      IsComponentLink pointer ∧ (api.document.root.resolveLocal? pointer).isSome = true) :
    api.Describes view schema ((api.lower { qualified, view } schema).getD .unknown) where
  names _ hn := exists_pointer_of_mem_names { qualified, view } hspace hn
  records := records_lower { qualified, view } schema
  links := hlinks

/-- A name in a type is that of a definition, which describes its component in the same view. -/
theorem Describes.exists_definition {declared : Members} (h : api.Describes view schema type)
    (hd : api.document.root.componentSchemas? = some declared) {name : String}
    (hn : name ∈ type.names) :
    ∃ component value, (component, value) ∈ api.document.schemas ∧
      ⟨name, api.schemaType view (.ofJson value)⟩ ∈ api.namedTypes component (.ofJson value) := by
  obtain ⟨pointer, hm, rfl⟩ := h.names name hn
  obtain ⟨hlink, hresolves⟩ := h.links pointer hm
  exact Api.exists_definition hd hlink hresolves view

/-- Where no name is defined twice, a name determines its component. -/
theorem component_unique (hnames : (api.schemas.map NamedType.name).Nodup)
    {component component' name : String} {value value' : Json}
    (hc : (component, value) ∈ api.document.schemas)
    (hn : name ∈ (api.namedTypes component (.ofJson value)).map NamedType.name)
    (hc' : (component', value') ∈ api.document.schemas)
    (hn' : name ∈ (api.namedTypes component' (.ofJson value')).map NamedType.name) :
    (component, value) = (component', value') := by
  rw [schemas, List.map_flatMap, List.nodup_flatMap] at hnames
  by_contra hne
  -- two components share no name
  have : Std.Symm (Function.onFun List.Disjoint fun entry : String × Json =>
      (api.namedTypes entry.1 (.ofJson entry.2)).map NamedType.name) :=
    ⟨fun _ _ h => List.disjoint_symm h⟩
  exact hnames.2.forall hc hc' hne hn hn'

/-- Where no name is defined twice, a name determines its component and its type. -/
theorem definition_unique (hnames : (api.schemas.map NamedType.name).Nodup)
    {component component' name : String} {value value' : Json} {found found' : TypeExpr}
    (hc : (component, value) ∈ api.document.schemas)
    (hd : ⟨name, found⟩ ∈ api.namedTypes component (.ofJson value))
    (hc' : (component', value') ∈ api.document.schemas)
    (hd' : ⟨name, found'⟩ ∈ api.namedTypes component' (.ofJson value')) :
    value = value' ∧ found = found' := by
  have heq := component_unique hnames hc (List.mem_map.mpr ⟨_, hd, rfl⟩) hc'
    (List.mem_map.mpr ⟨_, hd', rfl⟩)
  cases heq
  -- one component has each name once
  rw [schemas, List.map_flatMap, List.nodup_flatMap] at hnames
  have hsame := List.inj_on_of_nodup_map (hnames.1 _ hc) hd hd' rfl
  cases hsame
  exact ⟨rfl, rfl⟩

/-! ## Whole descriptions -/

/-- The references of the schemas of a document whose references all resolve resolve in it. -/
theorem links_of_hasSchema {uri : String} {root : Json}
    (hdoc : Document.ofTree uri root = .ok api.document)
    (hlinks : ∀ value, api.document.HasSchema value →
      ∀ pointer ∈ (Schema.ofJson value).pointers, IsComponentLink pointer) {value : Json}
    (h : api.document.HasSchema value) :
    ∀ pointer ∈ (Schema.ofJson value).pointers,
      IsComponentLink pointer ∧ (api.document.root.resolveLocal? pointer).isSome = true := by
  intro pointer hm
  obtain ⟨hroot, hclosed⟩ := Document.ofTree_eq_ok hdoc
  refine ⟨hlinks value h pointer hm, ?_⟩
  rw [hroot]
  apply hclosed pointer
  rw [← hroot]
  exact h.references_subset (Schema.pointers_ofJson_subset value hm)

/-- The type of data describes the schema that the data has, if it has one. -/
theorem Types.describes {schema : Option Json} (ht : api.Types view schema type)
    (hspace : api.settings.schemaNamespace = "")
    (hlinks : ∀ {value}, api.document.HasSchema value → ∀ pointer ∈ (Schema.ofJson value).pointers,
      IsComponentLink pointer ∧ (api.document.root.resolveLocal? pointer).isSome = true) :
    api.Describes view ((schema.map Schema.ofJson).getD (.unknown {})) type := by
  cases ht with
  | noContent => exact ⟨List.forall_mem_nil _, rfl, List.forall_mem_nil _⟩
  | lowered h =>
      cases schema with
      | none => exact ⟨List.forall_mem_nil _, rfl, List.forall_mem_nil _⟩
      | some value => exact describes_lower hspace true (hlinks (.inr ⟨view, h⟩))

/-- Whatever is met describes its schema in the view that was started in. -/
theorem Met.describes {declared : Members} {schema' : Schema} {type' : TypeExpr}
    (h : api.Met schema type schema' type') (hstart : api.Describes view schema type)
    (hspace : api.settings.schemaNamespace = "")
    (hd : api.document.root.componentSchemas? = some declared)
    (hnames : (api.schemas.map NamedType.name).Nodup)
    (hlinks : ∀ {value}, api.document.HasSchema value → ∀ pointer ∈ (Schema.ofJson value).pointers,
      IsComponentLink pointer ∧ (api.document.root.resolveLocal? pointer).isSome = true) :
    api.Describes view schema' type' := by
  induction h with
  | start => exact hstart
  | definition _ hn hc hdef ih =>
      -- the name has just one definition, and the reference it comes from has one in this view
      obtain ⟨component', value', hc', hdef'⟩ := ih.exists_definition hd hn
      obtain ⟨rfl, rfl⟩ := definition_unique hnames hc hdef hc' hdef'
      exact describes_lower hspace false (hlinks (.inl ⟨_, hc⟩))

/-- What a view hides is met in none of its types: start at the type of any data that is seen in a
view and replace names by what is defined under them, over and over. Every name that is met is
defined, and the records of every type that is met list, in order, the properties of the objects of
its schema that the view shows. -/
theorem names_and_records_of_met {uri : String} {root : Json} {declared : Members}
    {description : Description} (hdoc : Document.ofTree uri root = .ok api.document)
    (hd : api.document.root.componentSchemas? = some declared)
    (hlinks : ∀ value, api.document.HasSchema value →
      ∀ pointer ∈ (Schema.ofJson value).pointers, IsComponentLink pointer)
    (hspace : api.settings.schemaNamespace = "") (h : api.describe = .ok description)
    (hnames : (description.schemas.map NamedType.name).Nodup) {endpoint : Endpoint}
    (he : endpoint ∈ description.endpoints) (ht : type ∈ endpoint.types view) :
    ∃ schema, api.Types view schema type ∧
      ∀ {schema' type'}, api.Met ((schema.map Schema.ofJson).getD (.unknown {})) type schema' type' →
        (∀ name ∈ type'.names, ∃ found ∈ description.schemas, found.name = name) ∧
          type'.records = schema'.shownObjects view := by
  obtain ⟨endpoints, hendpoints, h⟩ := Except.exists_of_bind_eq_ok h
  cases h
  obtain ⟨schema, htypes⟩ := types_of_mem_endpoints hendpoints he ht
  have hgood {value : Json} (hs : api.document.HasSchema value) := links_of_hasSchema hdoc hlinks hs
  refine ⟨schema, htypes, fun {schema' type'} hmet => ?_⟩
  have hdescribes := hmet.describes (htypes.describes hspace hgood) hspace hd hnames hgood
  refine ⟨fun name hn => ?_, hdescribes.records⟩
  obtain ⟨component, value, hc, hdef⟩ := hdescribes.exists_definition hd hn
  exact ⟨_, List.mem_flatMap.mpr ⟨_, hc, hdef⟩, rfl⟩

end

/-- Pets that have pets as friends, one of them known under a second name; the identifier of a pet is
read-only. -/
def petsRoot : Json :=
  .object [("openapi", .string "3.0.0"),
    ("paths", .object [("/pets", .object [("post", .object [
      ("operationId", .string "addPets"),
      ("requestBody", .object [("content", .object [("application/json", .object [
        ("schema", .object [("type", .string "array"),
          ("items", .object [("$ref", .string "#/components/schemas/Friend")])])])])]),
      ("responses", .object [])])])]),
    ("components", .object [("schemas", .object [
      ("Friend", .object [("$ref", .string "#/components/schemas/Pet")]),
      ("Pet", .object [("type", .string "object"), ("properties", .object [
        ("id", .object [("type", .string "integer"), ("readOnly", .bool true)]),
        ("name", .object [("type", .string "string")]),
        ("friends", .object [("type", .string "array"),
          ("items", .object [("$ref", .string "#/components/schemas/Friend")])])])])])])]

/-- The description of the pets, whose request body leads to the variant without identifiers. -/
theorem names_and_records_pets :
    ∃ description endpoint type schema,
      describe ⟨⟨"mem:/pets", petsRoot⟩, {}⟩ = .ok description ∧
      endpoint ∈ description.endpoints ∧ type ∈ endpoint.types .request ∧
      Types ⟨⟨"mem:/pets", petsRoot⟩, {}⟩ .request schema type ∧
      ∀ {schema' type'},
        Met ⟨⟨"mem:/pets", petsRoot⟩, {}⟩ ((schema.map Schema.ofJson).getD (.unknown {})) type
            schema' type' →
          (∀ name ∈ type'.names, ∃ found ∈ description.schemas, found.name = name) ∧
            type'.records = schema'.shownObjects .request := by
  obtain ⟨schemas, endpoint, body, h, hbody, hnames⟩ : ∃ schemas endpoint body,
      describe ⟨⟨"mem:/pets", petsRoot⟩, {}⟩ = .ok ⟨schemas, [endpoint]⟩ ∧
        endpoint.requestBody = some body ∧ (schemas.map NamedType.name).Nodup :=
    ⟨_, _, _, rfl, rfl, by decide⟩
  have hlinks : ∀ text ∈ petsRoot.references, IsComponentLink text := by decide
  have htype : body.type ∈ endpoint.types .request := by
    rw [Endpoint.types, hbody]
    exact List.mem_singleton_self _
  have hdoc : Document.ofTree "mem:/pets" petsRoot = .ok ⟨"mem:/pets", petsRoot⟩ := rfl
  obtain ⟨schema, htypes, hmet⟩ := names_and_records_of_met hdoc rfl
    (fun value hs pointer hm =>
      hlinks _ (hs.references_subset (Schema.pointers_ofJson_subset value hm)))
    rfl h hnames List.mem_cons_self htype
  exact ⟨_, endpoint, body.type, schema, h, List.mem_cons_self, htype, htypes, hmet⟩

end Api

end OpenApi
