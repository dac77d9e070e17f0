import OpenApi.Proofs.Endpoint.Blank
import OpenApi.Proofs.Endpoint.Faults
import OpenApi.Proofs.Schema.Agreement

/-!
# Documents that withhold properties

What a response shows of a document is what it shows of the blank of the document, in which write-only
properties are left out. This file says under which conditions (`Document.Conceals`) and proves it for
schemas; `OpenApi.Proofs.Endpoint.Secrecy` goes on from there to whole descriptions.

A document and its blank have different reference graphs, since what is left out may hold references.
The search for the flag still ends alike in both (`holds_blank`): a schema that has something left out
has the flag and ends the search, and any other one is the same in the blank, with the same targets.
-/

namespace OpenApi

namespace Document

/-! ## Conditions -/

/-- The values that are read on the way from `paths` to a path item, with the paths where they
stand. -/
inductive LeadsTo (doc : Document) : Path → Json → Prop where
  | declared {name value} (h : (name, value) ∈ doc.paths?.getD [])
      (hx : Api.isExtension name = false) : LeadsTo doc [.member "paths", .member name] value
  | referred {path value text found target} (h : LeadsTo doc path value)
      (hr : value.reference? = some text) (hl : doc.root.locateLocal? text = some found)
      (ha : doc.root.at? found = some target) : LeadsTo doc found target

/-- The texts that are followed: of Reference Objects, and of what components are read as. -/
def Follows (doc : Document) (text : String) : Prop :=
  text ∈ doc.root.references ∨
    ∃ value, doc.Component value ∧ referencePointer? value = some text

/-- Every reference of a schema points at a whole component schema. -/
def PointsWhole (doc : Document) (value : Json) : Prop :=
  ∀ pointer ∈ (Schema.ofJson value).pointers,
    ∃ name, doc.root.locateLocal? pointer = some (homePath name)

/-- At some paths a document has write-only properties of schemas, and no reference points at them or
into them; references of schemas point at whole component schemas. -/
structure Withholds (doc : Document) (hidden : List Path) : Prop where
  property : ∀ path ∈ hidden, PropertyPlace path
  veiled : doc.root.Veiled hidden []
  apart : ∀ {text}, doc.Follows text →
    ∀ found, doc.root.locateLocal? text = some found → Json.Clear hidden found
  whole : ∀ {value}, doc.HasSchema value → doc.PointsWhole value

/-- The properties that are withheld are nowhere shown as something else: neither in the values of an
enumeration nor as the operations of a path item. -/
structure Conceals (doc : Document) (hidden : List Path) : Prop extends doc.Withholds hidden where
  literal : ∀ path ∈ hidden, ∀ schema keyword, SchemaPlace schema →
    keyword = "enum" ∨ keyword = "const" → ¬schema ++ [.member keyword] <+: path
  items : ∀ {path value}, doc.LeadsTo path value → value.reference? = none → Open hidden path

/-- The document with what stands at hidden paths left out. Where it came from does not matter. -/
def blank (doc : Document) (hidden : List Path) : Document := ⟨"", doc.root.blank hidden []⟩

theorem LeadsTo.references_subset {doc : Document} {path : Path} {value : Json}
    (h : doc.LeadsTo path value) : value.references ⊆ doc.root.references := by
  cases h with
  | declared h hx => exact references_subset_of_mem_paths h
  | referred _ _ _ ha => exact Json.references_subset_of_at? ha

end Document

/-! ## Checking the conditions -/

instance (hidden : List Path) (path : Path) : Decidable (Json.Clear hidden path) :=
  inferInstanceAs (Decidable (∀ above ∈ hidden, ¬above <+: path))

instance (hidden : List Path) (path : Path) (value : Json) :
    Decidable (value.Veiled hidden path) :=
  inferInstanceAs
    (Decidable (∀ site ∈ value.sites path, site.1 ∈ hidden → site.2.isWriteOnly = true))

/-- The name of the component schema at a path. -/
def componentName? : Path → Option String
  | [.member components, .member schemas, .member name] =>
    if components = "components" ∧ schemas = "schemas" then some name else none
  | _ => none

theorem eq_homePath_of_componentName? {path : Path} {name : String}
    (h : componentName? path = some name) : path = homePath name := by
  unfold componentName? at h
  split at h
  · split at h
    · next hnames =>
        cases h
        rw [hnames.1, hnames.2]
        rfl
    · cases h
  · cases h

theorem open_of_check {hidden : List Path} {path : Path}
    (h : ∀ below ∈ hidden, below.dropLast ≠ path) : Open hidden path := by
  intro step hm
  exact h _ hm List.dropLast_concat

namespace Document

variable {doc : Document} {hidden : List Path}

theorem pointsWhole_of_check {value : Json}
    (h : ∀ pointer ∈ (Schema.ofJson value).pointers,
      ((doc.root.locateLocal? pointer).bind componentName?).isSome = true) :
    doc.PointsWhole value := by
  intro pointer hm
  obtain ⟨name, hname⟩ := Option.isSome_iff_exists.mp (h pointer hm)
  obtain ⟨path, hl, hpath⟩ := Option.bind_eq_some_iff.mp hname
  exact ⟨name, by rw [hl, eq_homePath_of_componentName? hpath]⟩

/-- The operations of a document, each with its path item. -/
def operations (doc : Document) : List (PathItem × Operation) :=
  (doc.paths?.getD []).flatMap fun (name, value) =>
    match doc.pathItem name value with
    | .ok item => item.operations.map fun (_, operation) => (item, operation)
    | .error _ => []

/-- The schemas that an operation declares for its data. -/
def operationSchemas (doc : Document) (item : PathItem) (operation : Operation) : List Json :=
  ((item.parameters ++ operation.parameters).filterMap fun written =>
    (doc.component .parameter ParameterObject.ofJson? written).toOption.bind Api.parameterSchema) ++
  (operation.requestBody.toList.filterMap fun written =>
    (doc.component .requestBody RequestBodyObject.ofJson? written).toOption.bind
      (·.content.jsonSchema?)) ++
  operation.responses.filterMap fun (_, written) =>
    (doc.component .response ResponseObject.ofJson? written).toOption.bind
      (·.content.bind Content.jsonSchema?)

/-- The schemas of a document: its component schemas and what its operations declare. -/
def schemaValues (doc : Document) : List Json :=
  doc.schemas.map Prod.snd ++
    doc.operations.flatMap fun (item, operation) => doc.operationSchemas item operation

theorem HasOperation.mem_operations {item : PathItem} {operation : Operation}
    (h : doc.HasOperation item operation) : (item, operation) ∈ doc.operations := by
  obtain ⟨name, value, method, hm, _, hi, ho⟩ := h
  refine List.mem_flatMap.mpr ⟨(name, value), hm, ?_⟩
  dsimp only
  rw [hi]
  exact List.mem_map_of_mem (f := fun entry : Method × Operation => (item, entry.2)) ho

theorem exists_of_declares {view : View} {value : Json} (h : doc.Declares view (some value)) :
    ∃ item operation, (item, operation) ∈ doc.operations ∧
      value ∈ doc.operationSchemas item operation := by
  generalize hs : some value = schema at h
  cases h with
  | parameter ho hw hc =>
      refine ⟨_, _, ho.mem_operations, List.mem_append_left _ (List.mem_append_left _ ?_)⟩
      refine List.mem_filterMap.mpr ⟨_, hw, ?_⟩
      rw [hc]
      exact hs.symm
  | body ho hw hc =>
      refine ⟨_, _, ho.mem_operations, List.mem_append_left _ (List.mem_append_right _ ?_)⟩
      refine List.mem_filterMap.mpr ⟨_, Option.mem_toList.mpr hw, ?_⟩
      rw [hc]
      exact hs.symm
  | @response item operation key written object content ho hw hc hcontent =>
      refine ⟨_, _, ho.mem_operations, List.mem_append_right _ ?_⟩
      refine List.mem_filterMap.mpr ⟨_, hw, ?_⟩
      dsimp only
      rw [hc]
      show object.content.bind Content.jsonSchema? = some value
      rw [hcontent]
      exact hs.symm

theorem HasSchema.mem_schemaValues {value : Json} (h : doc.HasSchema value) :
    value ∈ doc.schemaValues := by
  rcases h with ⟨name, hm⟩ | ⟨view, hd⟩
  · exact List.mem_append_left _ (List.mem_map_of_mem (f := Prod.snd) hm)
  · obtain ⟨item, operation, ho, hv⟩ := exists_of_declares hd
    exact List.mem_append_right _ (List.mem_flatMap.mpr ⟨(item, operation), ho, hv⟩)

/-- The conditions for withholding that can be computed. No component is an array, so that all
references that are followed are references of the tree. -/
def Checked (doc : Document) (hidden : List Path) : Prop :=
  doc.root.Veiled hidden [] ∧
    (∀ value ∈ doc.entries, value.asArray?.isNone = true) ∧
    (∀ text ∈ doc.root.references, ((doc.resolve? text).bind Json.asArray?).isNone = true ∧
      ∀ found ∈ doc.root.locateLocal? text, Json.Clear hidden found) ∧
    ∀ value ∈ doc.schemaValues, ∀ pointer ∈ (Schema.ofJson value).pointers,
      ((doc.root.locateLocal? pointer).bind componentName?).isSome = true

instance (doc : Document) (hidden : List Path) : Decidable (doc.Checked hidden) :=
  inferInstanceAs (Decidable (_ ∧ _ ∧ _ ∧ _))

theorem withholds_of_checked (hproperty : ∀ path ∈ hidden, PropertyPlace path)
    (h : doc.Checked hidden) : doc.Withholds hidden := by
  obtain ⟨hveiled, hentries, htargets, hschemas⟩ := h
  have hplain := componentsPlain_of_check hentries fun text hm => (htargets text hm).1
  refine ⟨hproperty, hveiled, fun {text} hf found hl => ?_, fun {value} hs => ?_⟩
  · rcases hf with hm | ⟨value, hc, hp⟩
    · exact (htargets text hm).2 found hl
    · have hr := reference?_of_referencePointer? (hplain hc) hp
      have hm := hc.references_subset (Json.mem_references_of_reference? hr)
      exact (htargets text hm).2 found hl
  · exact pointsWhole_of_check (hschemas value hs.mem_schemaValues)

theorem conceals_of_check (h : doc.Withholds hidden)
    (hliteral : ∀ path ∈ hidden, Step.member "enum" ∉ path ∧ Step.member "const" ∉ path)
    (hpaths : ∀ entry ∈ doc.paths?.getD [], ∀ below ∈ hidden,
      below.dropLast ≠ [.member "paths", .member entry.1])
    (hreferences : ∀ text ∈ doc.root.references, ∀ found ∈ doc.root.locateLocal? text,
      ∀ below ∈ hidden, below.dropLast ≠ found) : doc.Conceals hidden where
  toWithholds := h
  literal := by
    intro path hm schema keyword _ hk hprefix
    have hstep : Step.member keyword ∈ path :=
      hprefix.subset (List.mem_append_right _ (List.mem_singleton_self _))
    rcases hk with rfl | rfl
    · exact (hliteral path hm).1 hstep
    · exact (hliteral path hm).2 hstep
  items := by
    intro path value hl _
    cases hl with
    | declared hm _ => exact open_of_check (hpaths _ hm)
    | referred hl hr hfound _ =>
        exact open_of_check
          (hreferences _ (hl.references_subset (Json.mem_references_of_reference? hr)) _ hfound)

end Document

/-! ## Places that are never hidden -/

section

variable {hidden : List Path}

theorem HidesProperties.clear_of_length (h : HidesProperties hidden) {path : Path}
    (hlength : path.length < 3) : Json.Clear hidden path := by
  intro above hm hprefix
  obtain ⟨schema, name, hs, rfl⟩ := h.property above hm
  have hle := hprefix.length_le
  rw [List.length_append, List.length_append, List.length_singleton, List.length_singleton] at hle
  obtain rfl : schema = [] := List.length_eq_zero_iff.mp (by omega)
  exact schemaPlace_nil hs

theorem HidesProperties.clear_homePath (h : HidesProperties hidden) (name : String) :
    Json.Clear hidden (homePath name) := by
  have habove : Json.Clear hidden [.member "components", .member "schemas"] :=
    h.clear_of_length (by decide)
  refine Json.Clear.concat habove fun hm => ?_
  obtain ⟨schema, _, _, hpath, _⟩ := h.concat hm
  exact absurd (@concat_inj [.member "components"] _ _ _ hpath).2 (by decide)

end

namespace Document

variable {doc : Document} {hidden : List Path}

theorem Conceals.hides (h : doc.Conceals hidden) : HidesProperties hidden := ⟨h.property, h.literal⟩

/-! ## Declarations of the blank -/

theorem schemas_eq_membersAt (doc : Document) :
    doc.schemas = doc.root.membersAt [.member "components", .member "schemas"] := by
  rw [schemas, Json.membersAt, Json.componentSchemas?, Json.at?_cons, Json.member?_eq_step?]
  cases doc.root.step? (.member "components") with
  | none => rfl
  | some components =>
      rw [Option.bind_some, Option.bind_some, Json.at?_cons, Json.member?_eq_step?]
      cases components.step? (.member "schemas") <;> rfl

theorem paths_eq_membersAt (doc : Document) :
    doc.paths?.getD [] = doc.root.membersAt [.member "paths"] := by
  rw [paths?, Json.membersAt, Json.at?_cons, Json.member?_eq_step?]
  cases doc.root.step? (.member "paths") <;> rfl

theorem Conceals.schemas_blank (h : doc.Conceals hidden) : (doc.blank hidden).schemas
    = doc.schemas.map fun (name, value) => (name, value.blank hidden (homePath name)) := by
  rw [schemas_eq_membersAt, schemas_eq_membersAt, blank,
    Json.membersAt_blank (h.hides.clear_of_length (by decide))]
  rfl

theorem Conceals.paths_blank (h : doc.Conceals hidden) : (doc.blank hidden).paths?.getD []
    = (doc.paths?.getD []).map fun (name, value) =>
        (name, value.blank hidden [.member "paths", .member name]) := by
  rw [paths_eq_membersAt, paths_eq_membersAt, blank,
    Json.membersAt_blank (h.hides.clear_of_length (by decide))]
  rfl

theorem Conceals.veiled_of_mem_schemas (h : doc.Conceals hidden) {name : String} {value : Json}
    (hm : (name, value) ∈ doc.schemas) : value.Veiled hidden (homePath name) := by
  rw [schemas_eq_membersAt] at hm
  exact h.veiled.of_mem_membersAt hm

/-- A reference to a whole component schema leads to the blank of that schema. -/
theorem Conceals.exists_component (h : doc.Conceals hidden) {pointer name : String}
    (hl : doc.root.locateLocal? pointer = some (homePath name)) :
    ∃ value, (name, value) ∈ doc.schemas ∧ doc.resolve? pointer = some value ∧
      (doc.blank hidden).resolve? pointer = some (value.blank hidden (homePath name)) := by
  obtain ⟨value, ha⟩ := Json.exists_at?_of_locateLocal? hl
  refine ⟨value, ?_, ?_, ?_⟩
  · have hhome : doc.root.at? ([.member "components", .member "schemas"] ++ [.member name])
        = some value := ha
    rw [Json.at?_concat, Option.bind_eq_some_iff] at hhome
    obtain ⟨found, hfound, hstep⟩ := hhome
    rw [schemas_eq_membersAt, Json.membersAt, hfound]
    cases found with
    | object members => exact mem_of_lookup hstep
    | _ => cases hstep
  · rw [resolve?, Json.resolveLocal?_eq_locateLocal?, hl]
    exact ha
  · have hclear : ∀ found, doc.root.locateLocal? pointer = some found → Json.Clear hidden found := by
      intro found hfound
      cases hl.symm.trans hfound
      exact h.hides.clear_homePath name
    rw [resolve?, blank, Json.resolveLocal?_blank h.veiled hclear, hl, Option.bind_some, ha]
    rfl

/-! ## What the blank shows of a schema -/

/-- A component schema and its blank are equal up to what responses hide. -/
theorem Conceals.shownAlike_of_mem (h : doc.Conceals hidden) {name : String} {value : Json}
    (hm : (name, value) ∈ doc.schemas) : ShownAlike value (value.blank hidden (homePath name)) :=
  (Schema.conceal_ofJson_blank h.hides (homePath name) (.component name) value
    (h.hides.clear_homePath name).notMem (h.veiled_of_mem_schemas hm)).symm

/-- A component schema of a document, and that of the blank. -/
def SameComponent (doc : Document) (hidden : List Path) (schema schema' : Schema) : Prop :=
  ∃ name value, (name, value) ∈ doc.schemas ∧ schema = .ofJson value ∧
    schema' = .ofJson (value.blank hidden (homePath name))

theorem Conceals.matching (h : doc.Conceals hidden) :
    Matching doc (doc.blank hidden) .writeOnly (doc.SameComponent hidden) where
  carries := by
    rintro _ _ ⟨name, value, hm, rfl, rfl⟩
    exact (h.shownAlike_of_mem hm).carries_eq
  pointers := by
    rintro _ _ _ ⟨name, value, hm, rfl, rfl⟩ hc
    rw [(h.shownAlike_of_mem hm).ofJson_eq hc]
  targets := by
    rintro _ _ pointer ⟨name, value, hm, rfl, rfl⟩ _ hp
    obtain ⟨target, hl⟩ := h.whole (.inl ⟨name, hm⟩) pointer hp
    obtain ⟨found, hfound, hr, hr'⟩ := h.exists_component hl
    rw [schemaAt?, schemaAt?, hr, hr']
    exact .some ⟨target, found, hfound, rfl, rfl⟩

theorem Conceals.holds_blank (h : doc.Conceals hidden) {name : String} {value : Json}
    (hm : (name, value) ∈ doc.schemas) : doc.holds .writeOnly (.ofJson value)
      = (doc.blank hidden).holds .writeOnly (.ofJson (value.blank hidden (homePath name))) :=
  h.matching.holds_eq ⟨name, value, hm, rfl, rfl⟩

theorem Conceals.valueAdmitsNull_blank (h : doc.Conceals hidden) {name : String} {value : Json}
    (hm : (name, value) ∈ doc.schemas) :
    Schema.valueAdmitsNull (value.blank hidden (homePath name)) = Schema.valueAdmitsNull value := by
  have hnot := (h.hides.clear_homePath name).notMem
  cases value with
  | object members =>
      rw [Json.blank_object hnot]
      exact (Schema.sameKeywords_blankMembers h.hides (.component name)
        (h.veiled_of_mem_schemas hm)).admitsNull
  | array items =>
      rw [Json.blank_array hnot]
      rfl
  | _ => rw [Json.blank_scalar hnot rfl]

/-- A reference of a schema means the same in the document and in the blank. -/
theorem Conceals.alike (h : doc.Conceals hidden) (settings : Settings) {pointer name : String}
    (hl : doc.root.locateLocal? pointer = some (homePath name)) :
    Api.Alike ⟨doc, settings⟩ ⟨doc.blank hidden, settings⟩ .response pointer := by
  obtain ⟨value, hm, hr, hr'⟩ := h.exists_component hl
  constructor
  · rw [Api.targetAdmitsNull, Api.targetAdmitsNull, hr, hr', Option.map_some, Option.map_some,
      h.valueAdmitsNull_blank hm]
  · rw [Api.variantSuffix, Api.variantSuffix, schemaAt?, schemaAt?, hr, hr']
    dsimp only [View.hidden?, Option.map_some]
    rw [h.holds_blank hm]

/-- A schema and what shows the same have the same type in the view of a response. -/
theorem Conceals.lower_eq (h : doc.Conceals hidden) (settings : Settings) {value value' : Json}
    (hw : doc.PointsWhole value) (hs : ShownAlike value value') (qualified : Bool) :
    Api.lower ⟨doc, settings⟩ { qualified, view := .response } (.ofJson value)
      = Api.lower ⟨doc.blank hidden, settings⟩ { qualified, view := .response }
          (.ofJson value') := by
  rw [← Api.lower_conceal, ← Api.lower_conceal (.ofJson value')]
  dsimp only
  rw [← hs]
  have hsettings : Api.settings ⟨doc, settings⟩ = Api.settings ⟨doc.blank hidden, settings⟩ := rfl
  refine Api.lower_congr hsettings _ fun pointer hm => ?_
  obtain ⟨name, hl⟩ := hw pointer (Schema.pointers_conceal_subset .response _ hm)
  exact h.alike settings hl

end Document

end OpenApi
