import Mathlib.Tactic.SplitIfs
import OpenApi.Bundle.Position
import OpenApi.Proofs.Json.Blank
import OpenApi.Proofs.Schema.Concealment

/-!
# Reading a schema from a blank

What is left out of a tree may be properties of schema objects that are write-only. Then reading and
leaving out commute up to what the view of a response hides: `conceal_ofJson_blank`. The schema
objects are known by their paths (`SchemaPlace`), so that a keyword is never taken for a property of
the same name: what holds the properties of a schema does not stand where a schema may stand.

The values of an enumeration are no schemas, whatever they look like, and are shown as they are
written. Nothing may be left out of them.
-/

namespace OpenApi

/-! ## Places of schemas -/

/-- A keyword whose value holds several schemas, by name or in a list. -/
def IsCollection (keyword : String) : Prop :=
  Position.ofKeyword keyword = .schemaMap ∨ Position.ofKeyword keyword = .schemaList

/-- The paths where schemas may stand: the schemas that a document declares by name, what a member
`schema` holds, the items of an array, since an object may be written as the array of its members,
and what the keywords of a schema hold. -/
inductive SchemaPlace : Path → Prop where
  | component (name : String) :
      SchemaPlace [.member "components", .member "schemas", .member name]
  | definition (name : String) : SchemaPlace [.member "definitions", .member name]
  | declared (path : Path) : SchemaPlace (path ++ [.member "schema"])
  | item (path : Path) (index : Nat) : SchemaPlace (path ++ [.item index])
  | keyword {path : Path} {name : String} (h : SchemaPlace path)
      (hn : Position.ofKeyword name = .schema) : SchemaPlace (path ++ [.member name])
  | nested {path : Path} {name : String} (h : SchemaPlace path) (hn : IsCollection name)
      (step : Step) : SchemaPlace (path ++ [.member name] ++ [step])

theorem concat_inj {path path' : Path} {step step' : Step} (h : path ++ [step] = path' ++ [step']) :
    path = path' ∧ step = step' := by
  obtain ⟨hpath, hstep⟩ := List.append_inj' h rfl
  exact ⟨hpath, List.head_eq_of_cons_eq hstep⟩

/-- The last step to a schema place. -/
theorem SchemaPlace.last {path : Path} {step : Step} (h : SchemaPlace (path ++ [step])) :
    path = [.member "components", .member "schemas"] ∨ path = [.member "definitions"] ∨
      step = .member "schema" ∨ (∃ index, step = .item index) ∨
      (∃ name, step = .member name ∧ Position.ofKeyword name = .schema ∧ SchemaPlace path) ∨
      ∃ above name, path = above ++ [.member name] ∧ IsCollection name ∧ SchemaPlace above := by
  generalize heq : path ++ [step] = place at h
  cases h with
  | component name =>
      exact .inl (@concat_inj _ [.member "components", .member "schemas"] _ _ heq).1
  | definition name =>
      exact .inr (.inl (@concat_inj _ [.member "definitions"] _ _ heq).1)
  | declared path' => exact .inr (.inr (.inl (concat_inj heq).2))
  | item path' index => exact .inr (.inr (.inr (.inl ⟨index, (concat_inj heq).2⟩)))
  | @keyword path' name h hn =>
      obtain ⟨rfl, rfl⟩ := concat_inj heq
      exact .inr (.inr (.inr (.inr (.inl ⟨name, rfl, hn, h⟩))))
  | @nested path' name h hn step' =>
      obtain ⟨rfl, rfl⟩ := concat_inj heq
      exact .inr (.inr (.inr (.inr (.inr ⟨path', name, rfl, hn, h⟩))))

theorem schemaPlace_nil : ¬SchemaPlace [] := by
  intro h
  generalize heq : ([] : Path) = place at h
  cases h <;> simp at heq

/-- No path of one step but to a member `schema` or an item is a schema place. -/
theorem schemaPlace_singleton {name : String} (hn : name ≠ "schema") :
    ¬SchemaPlace [.member name] := by
  intro h
  rcases @SchemaPlace.last [] _ h with h | h | h | ⟨index, h⟩ | ⟨_, _, _, h⟩ | ⟨above, _, h, _⟩
  · cases h
  · cases h
  · cases h
    exact hn rfl
  · cases h
  · exact schemaPlace_nil h
  · cases above <;> cases h

theorem IsCollection.ne {keyword : String} (h : IsCollection keyword) :
    Position.ofKeyword keyword ≠ .schema ∧ keyword ≠ "schema" := by
  constructor
  · intro hk
    rcases h with h | h <;> cases hk.symm.trans h
  · rintro rfl
    rcases h with h | h <;> exact absurd h (by decide)

/-- What holds several schemas of a schema does not stand where a schema stands. -/
theorem SchemaPlace.not_collection {path : Path} (h : SchemaPlace path) {name : String}
    (hn : IsCollection name) : ¬SchemaPlace (path ++ [.member name]) := by
  intro hplace
  rcases hplace.last with rfl | rfl | hstep | ⟨index, hstep⟩ | ⟨_, hstep, hk, _⟩ |
    ⟨above, outer, rfl, houter, habove⟩
  · -- the component schemas are declared outside of any schema
    rcases @SchemaPlace.last [.member "components"] _ h with h | h | h | ⟨_, h⟩ |
      ⟨_, h, hk, _⟩ | ⟨above, _, h, _, habove⟩
    · exact absurd h (by decide)
    · exact absurd h (by decide)
    · exact absurd h (by decide)
    · cases h
    · cases h
      exact absurd hk (by decide)
    · obtain ⟨rfl, _⟩ := @concat_inj [] _ _ _ h
      exact schemaPlace_nil habove
  · exact schemaPlace_singleton (by decide) h
  · cases hstep
    exact hn.ne.2 rfl
  · cases hstep
  · cases hstep
    exact hn.ne.1 hk
  · exact habove.not_collection houter h
termination_by path.length
decreasing_by simp_all

/-! ## Reading a blank -/

namespace Schema

/-- A property schema, replaced if the view hides it. -/
def cover (view : View) (schema : Schema) : Schema :=
  if view.hides schema.flags then concealed else schema.conceal view

theorem concealProperties_eq_map (view : View) (properties : List (Property Schema)) :
    concealProperties view properties
      = properties.map fun property => { property with schema := property.schema.cover view } := by
  induction properties with
  | nil => rfl
  | cons property rest ih =>
      rw [concealProperties, List.map_cons, ih]
      rfl

theorem concealAll_eq_map (view : View) (schemas : List Schema) :
    concealAll view schemas = schemas.map (conceal view) := by
  induction schemas with
  | nil => rfl
  | cons schema rest ih => rw [concealAll, List.map_cons, ih]

/-- The schemas below an object schema, with the properties that a view hides replaced. -/
def Parts.conceal (view : View) (found : Parts) : Parts where
  allOf := found.allOf.map (concealAll view)
  oneOf := found.oneOf.map (concealAll view)
  anyOf := found.anyOf.map (concealAll view)
  items := found.items.map (Schema.conceal view)
  properties := found.properties.map fun (name, schema) => (name, schema.cover view)

section

variable (view : View) (members : Members) (found : Parts)

theorem conceal_objectShape (flags : Flags) :
    (objectShape members found flags).conceal view
      = objectShape members (found.conceal view) flags := by
  rw [objectShape, objectShape, conceal, concealProperties_eq_map, Parts.conceal, List.map_map,
    List.map_map]
  rfl

theorem conceal_typedShape (flags : Flags) (type : String) :
    (typedShape members found flags type).conceal view
      = typedShape members (found.conceal view) flags type := by
  unfold typedShape
  by_cases harray : type = "array"
  · rw [if_pos harray, if_pos harray, Parts.conceal]
    cases found.items <;> rfl
  · rw [if_neg harray, if_neg harray]
    by_cases hobject : type = "object"
    · rw [if_pos hobject, if_pos hobject, conceal_objectShape]
    · rw [if_neg hobject, if_neg hobject]
      cases Primitive.ofName? type <;> rfl

theorem conceal_shapeByType (flags : Flags) :
    (shapeByType members found flags).conceal view
      = shapeByType members (found.conceal view) flags := by
  unfold shapeByType
  split
  · by_cases hp : (members.lookup "properties").isSome = true
    · rw [if_pos hp, if_pos hp, conceal_objectShape]
    · rw [if_neg hp, if_neg hp]
      rfl
  · exact conceal_typedShape view members found flags _
  · rw [conceal, concealAll_eq_map, List.map_map]
    congr 1
    exact List.map_congr_left fun type _ => conceal_typedShape view members found _ type

/-- The shape of a schema is decided without looking into the schemas below it. -/
theorem conceal_assemble :
    (assemble members found).conceal view = assemble members (found.conceal view) := by
  unfold assemble
  dsimp only
  cases (members.lookup "$ref").bind Json.asString? with
  | some pointer => rfl
  | none =>
      rw [Parts.conceal]
      dsimp only
      cases found.allOf with
      | some schemas => rfl
      | none =>
          cases found.oneOf with
          | some schemas => rfl
          | none =>
              cases found.anyOf with
              | some schemas => rfl
              | none =>
                  dsimp only [Option.map_none]
                  cases (members.lookup "enum").bind Json.asArray? with
                  | some values => rfl
                  | none =>
                      cases members.lookup "const" with
                      | some value => rfl
                      | none => exact conceal_shapeByType view members found _

end

theorem flags_typedShape (members : Members) (found : Parts) (flags : Flags) (type : String) :
    (typedShape members found flags type).flags = flags := by
  unfold typedShape
  split
  · rfl
  · split
    · rfl
    · split <;> rfl

/-- The flags of an object schema do not depend on its shape. -/
theorem flags_assemble (members : Members) (found : Parts) :
    (assemble members found).flags = flagsOf members := by
  unfold assemble
  dsimp only
  split
  · rfl
  · split
    · rfl
    · rfl
    · rfl
    · split
      · rfl
      · split
        · rfl
        · unfold shapeByType
          split
          · split <;> rfl
          · exact flags_typedShape members found _ _
          · rfl

/-- The keywords that are flags. -/
def flagNames : List String := ["nullable", "x-nullable", "readOnly", "writeOnly"]

/-- Two objects have the same keywords that are no schemas. -/
structure SameKeywords (members members' : Members) : Prop where
  flag : ∀ name ∈ flagNames, flag name members = flag name members'
  types : declaredTypes members = declaredTypes members'
  required : requiredNames members = requiredNames members'
  reference : (members.lookup "$ref").bind Json.asString?
    = (members'.lookup "$ref").bind Json.asString?
  enum : (members.lookup "enum").bind Json.asArray? = (members'.lookup "enum").bind Json.asArray?
  const : members.lookup "const" = members'.lookup "const"
  properties : (members.lookup "properties").isSome = (members'.lookup "properties").isSome

namespace SameKeywords

variable {members members' : Members}

theorem admitsNull (h : SameKeywords members members') :
    Schema.admitsNull members = Schema.admitsNull members' := by
  rw [Schema.admitsNull, Schema.admitsNull, h.flag "nullable" (by decide),
    h.flag "x-nullable" (by decide), h.types]

theorem flagsOf (h : SameKeywords members members') :
    Schema.flagsOf members = Schema.flagsOf members' := by
  rw [Schema.flagsOf, Schema.flagsOf, h.admitsNull, h.flag "readOnly" (by decide),
    h.flag "writeOnly" (by decide)]

theorem typedShape (h : SameKeywords members members') (found : Parts) (flags : Flags)
    (type : String) :
    Schema.typedShape members found flags type = Schema.typedShape members' found flags type := by
  rw [Schema.typedShape, Schema.typedShape, objectShape, objectShape, h.required]

theorem assemble (h : SameKeywords members members') (found : Parts) :
    Schema.assemble members found = Schema.assemble members' found := by
  have hvalues : valueTypes members = valueTypes members' := by
    rw [valueTypes, valueTypes, h.types]
  have halternative : alternativeFlags members = alternativeFlags members' := by
    rw [alternativeFlags, alternativeFlags, h.flagsOf, h.flag "x-nullable" (by decide)]
  have hshape : ∀ flags, shapeByType members found flags = shapeByType members' found flags := by
    intro flags
    have htyped : Schema.typedShape members found = Schema.typedShape members' found := by
      funext flags type
      exact h.typedShape found flags type
    unfold shapeByType
    rw [hvalues, halternative, h.properties, htyped, objectShape, objectShape, h.required]
  rw [Schema.assemble, Schema.assemble, h.flagsOf, h.reference, hvalues, h.enum, h.const, hshape]

end SameKeywords

end Schema

/-! ## What may be hidden -/

/-- The paths of properties: entries of the member `properties` of a schema object. -/
def PropertyPlace (path : Path) : Prop :=
  ∃ schema name, SchemaPlace schema ∧ path = schema ++ [.member "properties"] ++ [.member name]

/-- What is hidden are properties of schema objects, none of them inside the values of an
enumeration. -/
structure HidesProperties (hidden : List Path) : Prop where
  property : ∀ path ∈ hidden, PropertyPlace path
  literal : ∀ path ∈ hidden, ∀ schema keyword, SchemaPlace schema →
    keyword = "enum" ∨ keyword = "const" → ¬schema ++ [.member keyword] <+: path

theorem isCollection_properties : IsCollection "properties" := .inl (by decide)

namespace HidesProperties

variable {hidden : List Path} {path : Path}

/-- The last step to a hidden path is a member of `properties`. -/
theorem concat (h : HidesProperties hidden) {step : Step} (hm : path ++ [step] ∈ hidden) :
    ∃ schema name, SchemaPlace schema ∧ path = schema ++ [.member "properties"] ∧
      step = .member name := by
  obtain ⟨schema, name, hs, heq⟩ := h.property _ hm
  obtain ⟨hpath, hstep⟩ := concat_inj heq
  exact ⟨schema, name, hs, hpath, hstep⟩

/-- The keywords of a schema are not hidden. -/
theorem notMem_of_schemaPlace (h : HidesProperties hidden) (hp : SchemaPlace path) (step : Step) :
    path ++ [step] ∉ hidden := by
  intro hm
  obtain ⟨schema, name, hs, rfl, _⟩ := h.concat hm
  exact hs.not_collection isCollection_properties hp

theorem notMem_item (h : HidesProperties hidden) (index : Nat) : path ++ [.item index] ∉ hidden := by
  intro hm
  obtain ⟨_, _, _, _, hstep⟩ := h.concat hm
  cases hstep

end HidesProperties

/-! ## Keywords of a blank -/

namespace Schema

variable {hidden : List Path} {path : Path}

theorem strings_blankItems (index : Nat) (items : List Json)
    (h : ∀ site ∈ Json.itemSites path index items, site.1 ∈ hidden → site.2.isWriteOnly = true) :
    strings (Json.blankItems hidden path index items) = strings items := by
  induction items generalizing index with
  | nil => rfl
  | cons item rest ih =>
      rw [Json.itemSites, List.forall_mem_append] at h
      have hitem : Json.Veiled hidden (path ++ [.item index]) item := h.1
      have hrest : (Json.blankItems hidden path (index + 1) rest).filterMap Json.asString?
          = rest.filterMap Json.asString? := ih (index + 1) h.2
      rw [Json.blankItems, strings, strings, List.filterMap_cons, List.filterMap_cons,
        hitem.asString?_blank, hrest]

/-- The strings of an array are those of its blank. -/
theorem strings_asArray?_blank {value : Json} (h : Json.Veiled hidden path value) :
    (value.blank hidden path).asArray?.map strings = value.asArray?.map strings := by
  by_cases hm : path ∈ hidden
  · obtain ⟨members, rfl, _⟩ := Json.exists_members_of_isWriteOnly (h.isWriteOnly hm)
    rw [Json.blank_of_mem hm]
    rfl
  · cases value with
    | object members =>
        rw [Json.blank_object hm]
        rfl
    | array items =>
        rw [Json.blank_array hm, Json.asArray?, Json.asArray?, Option.map_some, Option.map_some,
          strings_blankItems 0 items h.items]
    | _ => rw [Json.blank_scalar hm rfl]

/-- The type names of a value are its own text, or the strings of an array. -/
theorem declaredTypes_eq (members : Members) :
    declaredTypes members =
      match members.lookup "type" with
      | none => []
      | some value => value.asString?.toList ++ (value.asArray?.map strings).getD [] := by
  rw [declaredTypes.eq_def]
  cases members.lookup "type" with
  | none => rfl
  | some value => cases value <;> rfl

/-- The keywords of a schema that are no schemas are those of its blank. -/
theorem sameKeywords_blankMembers (hh : HidesProperties hidden) (hp : SchemaPlace path)
    {members : Members} (h : Json.Veiled hidden path (.object members)) :
    SameKeywords (Json.blankMembers hidden path members) members := by
  have hmember : ∀ {name value}, members.lookup name = some value →
      Json.Veiled hidden (path ++ [.member name]) value := by
    intro name value hl
    exact h.of_mem (mem_of_lookup hl)
  have hliteral : ∀ keyword, keyword = "enum" ∨ keyword = "const" →
      (Json.blankMembers hidden path members).lookup keyword = members.lookup keyword := by
    intro keyword hk
    rw [Json.lookup_blankMembers]
    cases members.lookup keyword with
    | none => rfl
    | some value =>
        rw [Option.map_some, Json.blank_eq_self _ value fun below hm =>
          hh.literal below hm path keyword hp hk]
  refine ⟨fun name _ => ?_, ?_, ?_, ?_, ?_, hliteral "const" (.inr rfl), ?_⟩
  · rw [flag, flag, Json.lookup_blankMembers]
    cases hl : members.lookup name with
    | none => rfl
    | some value => rw [Option.map_some, Option.bind_some, Option.bind_some,
        (hmember hl).asBool?_blank]
  · rw [declaredTypes_eq, declaredTypes_eq, Json.lookup_blankMembers]
    cases hl : members.lookup "type" with
    | none => rfl
    | some value =>
        dsimp only [Option.map_some]
        rw [(hmember hl).asString?_blank, strings_asArray?_blank (hmember hl)]
  · rw [requiredNames, requiredNames, Json.lookup_blankMembers]
    cases hl : members.lookup "required" with
    | none => rfl
    | some value => rw [Option.map_some, Option.bind_some, Option.bind_some,
        strings_asArray?_blank (hmember hl)]
  · rw [Json.lookup_blankMembers]
    cases hl : members.lookup "$ref" with
    | none => rfl
    | some value => rw [Option.map_some, Option.bind_some, Option.bind_some,
        (hmember hl).asString?_blank]
  · rw [hliteral "enum" (.inl rfl)]
  · rw [Json.lookup_blankMembers, Option.isSome_map]

/-! ## Schemas of a blank -/

/-- What is write-only is hidden from responses. -/
theorem cover_of_isWriteOnly {value : Json} (h : value.isWriteOnly = true) :
    (ofJson value).cover .response = concealed := by
  obtain ⟨members, rfl, hflag⟩ := Json.exists_members_of_isWriteOnly h
  have hhides : View.response.hides (ofJson (.object members)).flags = true := by
    rw [ofJson, flags_assemble]
    exact hflag
  rw [cover, if_pos hhides]

/-- Schemas that are equal up to what a view hides are so as properties. -/
theorem cover_congr {view : View} {schema schema' : Schema}
    (h : schema.conceal view = schema'.conceal view) : schema.cover view = schema'.cover view := by
  have hflags : schema.flags = schema'.flags := by
    rw [← flags_conceal view schema, h, flags_conceal]
  rw [cover, cover, hflags, h]

/-- Each keyword adds its own schemas to those of the other members. -/
theorem conceal_parts_cons (view : View) (name : String) (value : Json) (rest : Members) :
    (parts ((name, value) :: rest)).conceal view =
      if name = "allOf" then
        { (parts rest).conceal view with allOf := (ofArray value).map (concealAll view) }
      else if name = "oneOf" then
        { (parts rest).conceal view with oneOf := (ofArray value).map (concealAll view) }
      else if name = "anyOf" then
        { (parts rest).conceal view with anyOf := (ofArray value).map (concealAll view) }
      else if name = "items" then
        { (parts rest).conceal view with items := some ((ofJson value).conceal view) }
      else if name = "properties" then
        { (parts rest).conceal view with
          properties := (ofObject value).map fun (name, schema) => (name, schema.cover view) }
      else (parts rest).conceal view := by
  rw [parts]
  split_ifs <;> rfl

mutual

/-- A schema that is read from a blank is the original one up to what responses hide. -/
theorem conceal_ofJson_blank (hh : HidesProperties hidden) (path : Path) (hp : SchemaPlace path)
    (value : Json) (hm : path ∉ hidden) (h : Json.Veiled hidden path value) :
    (ofJson (value.blank hidden path)).conceal .response = (ofJson value).conceal .response := by
  cases value with
  | object members =>
      rw [Json.blank_object hm, ofJson, ofJson, conceal_assemble, conceal_assemble,
        conceal_parts_blank hh path hp members h.members,
        (sameKeywords_blankMembers hh hp h).assemble]
  | array items => rw [Json.blank_array hm, ofJson, ofJson] <;> simp
  | _ => rw [Json.blank_scalar hm rfl]

theorem conceal_parts_blank (hh : HidesProperties hidden) (path : Path) (hp : SchemaPlace path)
    (members : List (String × Json))
    (h : ∀ site ∈ Json.memberSites path members, site.1 ∈ hidden → site.2.isWriteOnly = true) :
    (parts (Json.blankMembers hidden path members)).conceal .response
      = (parts members).conceal .response := by
  match members with
  | [] => rfl
  | (name, value) :: rest =>
    rw [Json.memberSites, List.forall_mem_append] at h
    have hvalue : Json.Veiled hidden (path ++ [.member name]) value := h.1
    have hm : path ++ [.member name] ∉ hidden := hh.notMem_of_schemaPlace hp _
    rw [Json.blankMembers, conceal_parts_cons, conceal_parts_cons,
      conceal_parts_blank hh path hp rest h.2, map_concealAll_ofArray_blank hh _ value hm hvalue]
    split_ifs with hall hone hany hitems hproperties
    · rfl
    · rfl
    · rfl
    · have hplace : SchemaPlace (path ++ [.member name]) := hp.keyword (by rw [hitems]; decide)
      rw [conceal_ofJson_blank hh _ hplace value hm hvalue]
    · have hcollection : IsCollection name := hproperties ▸ isCollection_properties
      rw [map_cover_ofObject_blank hh _ (hp.nested hcollection) value hm hvalue]
    · rfl

theorem map_concealAll_ofArray_blank (hh : HidesProperties hidden) (path : Path) (value : Json)
    (hm : path ∉ hidden) (h : Json.Veiled hidden path value) :
    (ofArray (value.blank hidden path)).map (concealAll .response)
      = (ofArray value).map (concealAll .response) := by
  cases value with
  | object members => rw [Json.blank_object hm, ofArray, ofArray] <;> simp
  | array items =>
      rw [Json.blank_array hm, ofArray, ofArray, Option.map_some, Option.map_some,
        concealAll_ofItems_blank hh path 0 items h.items]
  | _ => rw [Json.blank_scalar hm rfl]

theorem concealAll_ofItems_blank (hh : HidesProperties hidden) (path : Path) (index : Nat)
    (items : List Json)
    (h : ∀ site ∈ Json.itemSites path index items, site.1 ∈ hidden → site.2.isWriteOnly = true) :
    concealAll .response (ofItems (Json.blankItems hidden path index items))
      = concealAll .response (ofItems items) := by
  match items with
  | [] => rfl
  | item :: rest =>
    rw [Json.itemSites, List.forall_mem_append] at h
    rw [Json.blankItems, ofItems, ofItems, concealAll, concealAll,
      conceal_ofJson_blank hh _ (.item path index) item (hh.notMem_item index) h.1,
      concealAll_ofItems_blank hh path (index + 1) rest h.2]

theorem map_cover_ofObject_blank (hh : HidesProperties hidden) (path : Path)
    (hp : ∀ step, SchemaPlace (path ++ [step])) (value : Json) (hm : path ∉ hidden)
    (h : Json.Veiled hidden path value) :
    (ofObject (value.blank hidden path)).map (fun (name, schema) => (name, schema.cover .response))
      = (ofObject value).map fun (name, schema) => (name, schema.cover .response) := by
  cases value with
  | object members =>
      rw [Json.blank_object hm, ofObject, ofObject,
        map_cover_ofMembers_blank hh path hp members h.members]
  | array items => rw [Json.blank_array hm, ofObject, ofObject] <;> simp
  | _ => rw [Json.blank_scalar hm rfl]

theorem map_cover_ofMembers_blank (hh : HidesProperties hidden) (path : Path)
    (hp : ∀ step, SchemaPlace (path ++ [step])) (members : List (String × Json))
    (h : ∀ site ∈ Json.memberSites path members, site.1 ∈ hidden → site.2.isWriteOnly = true) :
    (ofMembers (Json.blankMembers hidden path members)).map
        (fun (name, schema) => (name, schema.cover .response))
      = (ofMembers members).map fun (name, schema) => (name, schema.cover .response) := by
  match members with
  | [] => rfl
  | (name, value) :: rest =>
    rw [Json.memberSites, List.forall_mem_append] at h
    have hvalue : Json.Veiled hidden (path ++ [.member name]) value := h.1
    -- a hidden property is write-only on both sides, any other one is the same up to concealment
    have hentry : (ofJson (value.blank hidden (path ++ [.member name]))).cover .response
        = (ofJson value).cover .response := by
      by_cases hm : path ++ [.member name] ∈ hidden
      · rw [Json.blank_of_mem hm, cover_of_isWriteOnly Json.isWriteOnly_veil,
          cover_of_isWriteOnly (hvalue.isWriteOnly hm)]
      · exact cover_congr (conceal_ofJson_blank hh _ (hp _) value hm hvalue)
    rw [Json.blankMembers, ofMembers, ofMembers, List.map_cons, List.map_cons,
      map_cover_ofMembers_blank hh path hp rest h.2]
    dsimp only
    rw [hentry]

end

end Schema

/-! ## What responses show of a schema -/

/-- Schemas that are equal up to what responses hide. -/
def ShownAlike (value value' : Json) : Prop :=
  (Schema.ofJson value).conceal .response = (Schema.ofJson value').conceal .response

theorem ShownAlike.carries_eq {value value' : Json} (h : ShownAlike value value') :
    (Schema.ofJson value).carries .writeOnly = (Schema.ofJson value').carries .writeOnly := by
  have hview : View.response.hidden? = some .writeOnly := rfl
  rw [← Schema.carries_conceal hview, h, Schema.carries_conceal hview]

/-- Schemas that hide nothing are equal if they show the same. -/
theorem ShownAlike.ofJson_eq {value value' : Json} (h : ShownAlike value value')
    (hc : (Schema.ofJson value).carries .writeOnly = false) :
    Schema.ofJson value = Schema.ofJson value' := by
  have hview : View.response.hidden? = some .writeOnly := rfl
  rw [← Schema.conceal_eq_self hview _ hc, h, Schema.conceal_eq_self hview _ (h.carries_eq.symm.trans hc)]

end OpenApi
