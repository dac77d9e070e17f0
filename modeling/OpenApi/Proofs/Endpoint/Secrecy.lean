import OpenApi.Proofs.Endpoint.Chains
import OpenApi.Proofs.Endpoint.Withholding

/-!
# What is write-only cannot be seen in responses

Two documents that differ only in write-only properties of schemas show the same in all responses:
the lowered schemas are the same, and so are the types of all responses and the variants of component
schemas that responses lead to. Each of the documents is compared with its blank, in which the
properties are left out; the two blanks are one and the same.

A document and its blank are described in lockstep. At every step both fail, or both go on with
objects that are alike; chains of references are given the same bound in both, since any bound that is
large enough finds the same end (`OpenApi.Proofs.Endpoint.Chains`).
-/

namespace OpenApi

/-! ## Computations that end alike -/

section

variable {α β γ δ : Type} {R : α → β → Prop} {S : γ → δ → Prop}

/-- Both computations fail, for whatever reasons, or both succeed with related results. -/
def Together (R : α → β → Prop) (x : Except Error α) (y : Except Error β) : Prop :=
  Option.Rel R x.toOption y.toOption

theorem together_ok {a : α} {b : β} (h : R a b) : Together R (.ok a) (.ok b) := .some h

theorem together_error (error error' : Error) : Together R (.error error) (.error error') := .none

theorem Together.bind {x : Except Error α} {y : Except Error β} {f : α → Except Error γ}
    {g : β → Except Error δ} (h : Together R x y)
    (hf : ∀ {a b}, x = .ok a → R a b → Together S (f a) (g b)) :
    Together S (x >>= f) (y >>= g) := by
  cases x with
  | error error =>
      cases y with
      | error error' => exact .none
      | ok b => cases h
  | ok a =>
      cases y with
      | error error' => cases h
      | ok b =>
          cases h with
          | some hab => exact hf rfl hab

theorem together_mapM {f : α → Except Error γ} {g : β → Except Error δ} {list : List α}
    {list' : List β} (h : List.Forall₂ (fun a b => Together S (f a) (g b)) list list') :
    Together (List.Forall₂ S) (list.mapM f) (list'.mapM g) := by
  induction h with
  | nil => exact together_ok .nil
  | cons hhead _ ih =>
      rw [List.mapM_cons, List.mapM_cons]
      refine hhead.bind fun _ hfirst => ih.bind fun _ hrest => ?_
      exact together_ok (.cons hfirst hrest)

/-- Lists that are related, with what is known of the elements of the first. -/
theorem forall₂_with_mem {list : List α} {list' : List β} (h : List.Forall₂ R list list') :
    List.Forall₂ (fun a b => a ∈ list ∧ R a b) list list' :=
  (List.forall₂_and_left list list').mpr ⟨fun _ ha => ha, h⟩

end

namespace Document

variable {doc : Document} {hidden : List Path}

/-! ## Path items -/

theorem Conceals.clear_of_leadsTo (h : doc.Conceals hidden) {path : Path} {value : Json}
    (hl : doc.LeadsTo path value) : Json.Clear hidden path := by
  cases hl with
  | declared _ _ => exact h.hides.clear_of_length (Nat.lt_succ_self 2)
  | referred hl hr hfound _ =>
      exact h.apart (.inl (hl.references_subset (Json.mem_references_of_reference? hr))) _ hfound

theorem Conceals.veiled_of_leadsTo (h : doc.Conceals hidden) {path : Path} {value : Json}
    (hl : doc.LeadsTo path value) : value.Veiled hidden path := by
  cases hl with
  | declared hm _ =>
      rw [paths_eq_membersAt] at hm
      exact h.veiled.of_mem_membersAt hm
  | referred _ _ _ ha => exact h.veiled.at ha

/-- A path item of a document, where it stands, and that of the blank. -/
def SameItem (doc : Document) (hidden : List Path) (item item' : Json) : Prop :=
  ∃ path, doc.LeadsTo path item ∧ item.reference? = none ∧ item' = item.blank hidden path

/-- References between path items are followed alike. -/
theorem Conceals.rel_derefFrom (h : doc.Conceals hidden) (fuel : Nat) (seen : List String)
    {path : Path} {value : Json} (hl : doc.LeadsTo path value) :
    Option.Rel (doc.SameItem hidden) (doc.derefFrom fuel seen value)
      ((doc.blank hidden).derefFrom fuel seen (value.blank hidden path)) := by
  induction fuel generalizing seen path value with
  | zero => exact .none
  | succ fuel ih =>
      rw [derefFrom, derefFrom,
        (h.veiled_of_leadsTo hl).reference?_blank (h.clear_of_leadsTo hl).notMem]
      cases hr : value.reference? with
      | none => exact .some ⟨path, hl, hr, rfl⟩
      | some text =>
          dsimp only
          split
          · exact .none
          · have hfollows : doc.Follows text :=
              .inl (hl.references_subset (Json.mem_references_of_reference? hr))
            rw [resolve?, resolve?, blank, Json.resolveLocal?_blank h.veiled (h.apart hfollows),
              Json.resolveLocal?_eq_locateLocal?]
            cases hfound : doc.root.locateLocal? text with
            | none => exact .none
            | some found =>
                dsimp only [Option.bind_some]
                cases ha : doc.root.at? found with
                | none => exact .none
                | some target => exact ih _ (hl.referred hr hfound ha)

theorem Conceals.together_pathItem (h : doc.Conceals hidden) {name : String} {value : Json}
    (hm : (name, value) ∈ doc.paths?.getD []) (hx : Api.isExtension name = false) :
    Together PathItem.Alike (doc.pathItem name value) ((doc.blank hidden).pathItem name
      (value.blank hidden [.member "paths", .member name])) := by
  -- both chains are given the bound that is large enough for each of them
  have hrel := h.rel_derefFrom (max doc.chainBound (doc.blank hidden).chainBound) []
    (.declared hm hx)
  rw [derefFrom_of_le (Nat.le_max_left _ _), derefFrom_of_le (Nat.le_max_right _ _)] at hrel
  rw [pathItem, pathItem]
  generalize doc.deref value = found at hrel ⊢
  generalize (doc.blank hidden).deref _ = found' at hrel ⊢
  cases hrel with
  | none => exact together_error _ _
  | some hitem =>
      obtain ⟨path, hl, hr, rfl⟩ := hitem
      have hread := readsAlike_pathItem h.hides (h.clear_of_leadsTo hl).notMem (h.items hl hr)
        ⟨h.veiled_of_leadsTo hl, rfl⟩
      dsimp only
      generalize PathItem.ofJson? _ = item at hread ⊢
      generalize PathItem.ofJson? _ = item' at hread ⊢
      cases hread with
      | none => exact together_error _ _
      | some halike => exact together_ok halike

/-! ## Components -/

section

variable {α : Type} {read : Json → Option α} {R : α → α → Prop}

/-- References between components are followed alike. -/
theorem Conceals.together_followComponent (h : doc.Conceals hidden) (kind : ComponentKind)
    (hread : ∀ {path}, path ∉ hidden → ReadsAlike hidden path read R) (fuel : Nat)
    (seen : List String) {value : Json} (hc : doc.Component value) {pointer : String}
    (hp : referencePointer? value = some pointer) :
    Together R (doc.followComponent kind read fuel seen pointer)
      ((doc.blank hidden).followComponent kind read fuel seen pointer) := by
  induction fuel generalizing seen value pointer with
  | zero => exact together_error _ _
  | succ fuel ih =>
      have hapart := fun found => h.apart (.inr ⟨value, hc, hp⟩) found
      have hresolve : (doc.blank hidden).resolve? pointer = _ :=
        Json.resolveLocal?_blank h.veiled hapart
      have hresolve' : doc.resolve? pointer = _ := Json.resolveLocal?_eq_locateLocal? _ _
      rw [followComponent, followComponent, hresolve]
      split
      · exact together_error _ _
      · cases hfound : doc.root.locateLocal? pointer with
        | none =>
            rw [hresolve', hfound]
            exact together_error _ _
        | some found =>
            rw [Option.bind_some]
            cases ha : doc.root.at? found with
            | none =>
                rw [hresolve', hfound, Option.bind_some, ha]
                exact together_error _ _
            | some target =>
                have hr : doc.resolve? pointer = some target := by
                  rw [hresolve', hfound, Option.bind_some, ha]
                have hnot := (hapart found hfound).notMem
                have hrel := readsAlike_orReference hnot (hread hnot) ⟨h.veiled.at ha, rfl⟩
                rw [hr]
                dsimp only [Option.map_some]
                generalize hown : OrReference.ofJson? read target = written at hrel ⊢
                generalize OrReference.ofJson? read _ = written' at hrel ⊢
                cases hrel with
                | none => exact together_error _ _
                | some halike =>
                    cases halike with
                    | value hab => exact together_ok hab
                    | reference next =>
                        exact ih _ (hc.target hp hr) (referencePointer?_of_ofJson? hown)

theorem Conceals.together_component (h : doc.Conceals hidden) (kind : ComponentKind)
    (hread : ∀ {path}, path ∉ hidden → ReadsAlike hidden path read R) {entries : List Json}
    (hentries : ∀ entry ∈ entries, doc.Component entry) {written written' : OrReference α}
    (hw : written.From entries read) (halike : written.Alike R written') :
    Together R (doc.component kind read written)
      ((doc.blank hidden).component kind read written') := by
  cases halike with
  | value hab => exact together_ok hab
  | reference pointer =>
      obtain ⟨entry, he, hentry⟩ := hw
      have htogether := h.together_followComponent kind hread
        (max (doc.root.texts.length + 3) ((doc.blank hidden).root.texts.length + 3)) []
        (hentries entry he) (referencePointer?_of_ofJson? hentry)
      rw [followComponent_of_le (Nat.le_max_left _ _), followComponent_of_le (Nat.le_max_right _ _)]
        at htogether
      exact htogether

end

end Document

/-! ## Endpoints -/

/-- What responses show of an endpoint, and which endpoint it is. -/
def Endpoint.shown (endpoint : Endpoint) : String × Method × List Response :=
  (endpoint.path, endpoint.method, endpoint.responses)

/-- What responses show of the endpoints of a description. -/
def Description.shown (description : Description) : List (String × Method × List Response) :=
  description.endpoints.map Endpoint.shown

namespace Api

variable {doc : Document} {hidden : List Path} {entries : List Json} {item item' : PathItem}
  {operation operation' : Operation}

/-- Alike responses have the same type. -/
theorem responseType_blank (h : doc.Conceals hidden) (settings : Settings)
    {response response' : ResponseObject} (halike : response.Alike response')
    (hdeclared : ∀ {content schema}, response.content = some content →
      content.jsonSchema? = some schema → doc.HasSchema schema) :
    responseType ⟨doc, settings⟩ response = responseType ⟨doc.blank hidden, settings⟩ response' := by
  rw [responseType, responseType]
  rw [ResponseObject.Alike] at halike
  generalize hc : response.content = content at halike ⊢
  generalize response'.content = content' at halike ⊢
  cases halike with
  | none => rfl
  | some hcontent =>
      have hrel := hcontent.jsonSchema?
      dsimp only
      generalize hs : Content.jsonSchema? _ = schema at hrel ⊢
      generalize Content.jsonSchema? _ = schema' at hrel ⊢
      cases hrel with
      | none => rw [typeOf, typeOf, Option.bind_none, Option.bind_none]
      | some hshown =>
          rw [typeOf, typeOf, Option.bind_some, Option.bind_some,
            h.lower_eq settings (h.whole (hdeclared hc hs)) hshown]

theorem together_response (h : doc.Conceals hidden) (settings : Settings)
    (hentries : ∀ entry ∈ entries, doc.Component entry) (ho : doc.HasOperation item operation)
    (hfrom : operation.From entries) {key : String} {written written' : OrReference ResponseObject}
    (hm : (key, written) ∈ operation.responses) (halike : written.Alike ResponseObject.Alike written') :
    Together Eq (response ⟨doc, settings⟩ key written)
      (response ⟨doc.blank hidden, settings⟩ key written') := by
  refine (h.together_component .response (readsAlike_response h.hides) hentries (hfrom.responses _ hm)
    halike).bind fun hc hobject => together_ok ?_
  rw [responseType_blank h settings hobject fun hcontent hs =>
    .inr ⟨.response, hs ▸ .response ho hm hc hcontent⟩]

theorem together_endpoint (h : doc.Conceals hidden) (settings : Settings)
    (hentries : ∀ entry ∈ entries, doc.Component entry) (ho : doc.HasOperation item operation)
    (hi : item.From entries) (hfrom : operation.From entries)
    (hitem : item.Alike item') (hoperation : operation.Alike operation') (path : String)
    (method : Method) :
    Together (fun e e' => e.shown = e'.shown)
      (endpoint ⟨doc, settings⟩ path item.parameters method operation)
      (endpoint ⟨doc.blank hidden, settings⟩ path item'.parameters method operation') := by
  have hwritten : ∀ written ∈ item.parameters ++ operation.parameters,
      written.From entries ParameterObject.ofJson? := by
    intro written hw
    exact (List.mem_append.mp hw).elim (hi.parameters written) (hfrom.parameters written)
  have hparameters : ParametersAlike (item.parameters ++ operation.parameters)
      (item'.parameters ++ operation'.parameters) :=
    List.rel_append hitem.parameters hoperation.parameters
  have hresponses : Together (List.Forall₂ Eq) (responses ⟨doc, settings⟩ operation.responses)
      (responses ⟨doc.blank hidden, settings⟩ operation'.responses) := by
    refine together_mapM ((forall₂_with_mem hoperation.responses).imp ?_)
    rintro ⟨key, written⟩ ⟨_, written'⟩ ⟨hm, rfl, halike⟩
    exact together_response h settings hentries ho hfrom hm halike
  refine Together.bind (R := fun _ _ => True) ?_ fun _ _ =>
    Together.bind (R := fun _ _ => True) ?_ fun _ _ => hresponses.bind fun _ heq => together_ok ?_
  · refine Together.bind (R := List.Forall₂ fun _ _ => True)
      (together_mapM ((forall₂_with_mem hparameters).imp ?_)) fun _ _ => together_ok trivial
    rintro written written' ⟨hm, halike⟩
    exact h.together_component .parameter (readsAlike_parameter h.hides) hentries (hwritten written hm) halike
  · have hbody := hoperation.requestBody
    generalize hw : operation.requestBody = written at hbody ⊢
    generalize operation'.requestBody = written' at hbody ⊢
    cases hbody with
    | none => exact together_ok trivial
    | some halike =>
        refine Together.bind (R := fun _ _ => True) ?_ fun _ _ => together_ok trivial
        refine Together.bind (R := fun _ _ => True) ?_ fun _ _ => together_ok trivial
        exact h.together_component .requestBody (readsAlike_requestBody h.hides) hentries
          (hfrom.requestBody _ hw) halike
  · rw [List.forall₂_eq_eq_eq] at heq
    rw [Endpoint.shown, Endpoint.shown, heq]

/-- A document and its blank have endpoints that show the same. -/
theorem together_endpoints (h : doc.Conceals hidden) (settings : Settings) :
    Together (List.Forall₂ fun e e' => e.shown = e'.shown) (endpoints ⟨doc, settings⟩)
      (endpoints ⟨doc.blank hidden, settings⟩) := by
  refine Together.bind (together_mapM (S := List.Forall₂ fun e e' => e.shown = e'.shown) ?_)
    fun _ hfound => together_ok (List.rel_flatten hfound)
  dsimp only
  rw [h.paths_blank, List.filter_map, List.forall₂_map_right_iff]
  refine List.forall₂_same.mpr ?_
  rintro ⟨name, value⟩ hm
  obtain ⟨hm, hx⟩ := List.mem_filter.mp hm
  have hx : isExtension name = false := by simpa using hx
  refine (h.together_pathItem hm hx).bind fun {item item'} hi hitem => ?_
  obtain ⟨entries, hfrom, hentries⟩ := Document.exists_from_of_pathItem hm hx hi
  refine together_mapM ((forall₂_with_mem hitem.operations).imp ?_)
  rintro ⟨method, operation⟩ ⟨_, operation'⟩ ⟨ho, rfl, hoperation⟩
  exact together_endpoint h settings hentries ⟨name, value, method, hm, hx, hi, ho⟩ hfrom
    (hfrom.operations _ ho) hitem hoperation name method

/-! ## Descriptions -/

/-- The component schemas, each with its variant for responses if it has one. -/
def readable (api : Api) : List (String × List NamedType) :=
  api.document.schemas.map fun (name, value) =>
    (name, namedTypes.variant api name (.ofJson value) .response .writeOnly)

theorem shown_describe_blank (h : doc.Conceals hidden) (settings : Settings) :
    (describe ⟨doc, settings⟩).toOption.map Description.shown
      = (describe ⟨doc.blank hidden, settings⟩).toOption.map Description.shown := by
  have hrel : Together (fun d d' => d.shown = d'.shown) (describe ⟨doc, settings⟩)
      (describe ⟨doc.blank hidden, settings⟩) := by
    refine (together_endpoints h settings).bind fun {found found'} _ hendpoints => together_ok ?_
    have hshown : List.Forall₂ Eq (found.map Endpoint.shown) (found'.map Endpoint.shown) :=
      List.forall₂_map_left_iff.mpr (List.forall₂_map_right_iff.mpr hendpoints)
    rw [List.forall₂_eq_eq_eq] at hshown
    exact hshown
  exact eq_of_rel (rel_map hrel id)

theorem readable_blank (h : doc.Conceals hidden) (settings : Settings) :
    readable ⟨doc, settings⟩ = readable ⟨doc.blank hidden, settings⟩ := by
  rw [readable, readable, h.schemas_blank, List.map_map]
  refine List.map_congr_left fun (name, value) hm => ?_
  have hlower := h.lower_eq settings (h.whole (.inl ⟨name, hm⟩)) (h.shownAlike_of_mem hm) false
  dsimp only [Function.comp]
  rw [namedTypes.variant, namedTypes.variant, schemaType, schemaType, h.holds_blank hm, hlower]

/-- Two documents withhold the same properties and are equal but for them. Then every schema of the
one and the schema at the same place in the other have the same type in the view of a response; the
descriptions fail together, or show the same in all responses; and the same component schemas have
variants for responses, with the same types. -/
theorem responses_eq_of_blank_eq {doc doc' : Document} {hidden : List Path}
    (h : doc.Conceals hidden) (h' : doc'.Conceals hidden)
    (heq : doc.root.blank hidden [] = doc'.root.blank hidden []) (settings : Settings) :
    (∀ {path value value'}, SchemaPlace path → Json.Clear hidden path →
      doc.root.at? path = some value → doc'.root.at? path = some value' →
      doc.PointsWhole value → doc'.PointsWhole value' → ∀ qualified,
        lower ⟨doc, settings⟩ { qualified, view := .response } (.ofJson value)
          = lower ⟨doc', settings⟩ { qualified, view := .response } (.ofJson value')) ∧
    (describe ⟨doc, settings⟩).toOption.map Description.shown
      = (describe ⟨doc', settings⟩).toOption.map Description.shown ∧
    readable ⟨doc, settings⟩ = readable ⟨doc', settings⟩ := by
  have hblank : doc.blank hidden = doc'.blank hidden := by
    rw [Document.blank, Document.blank, heq]
  refine ⟨fun {path value value'} hplace hclear ha ha' hw hw' qualified => ?_, ?_, ?_⟩
  · -- the blanks of both values are the node of the one blank at this path
    have hshown := Schema.conceal_ofJson_blank h.hides path hplace value hclear.notMem
      (h.veiled.at ha)
    have hshown' := Schema.conceal_ofJson_blank h'.hides path hplace value' hclear.notMem
      (h'.veiled.at ha')
    have hat := Json.at?_blank_root hclear doc.root
    have hat' := Json.at?_blank_root hclear doc'.root
    rw [heq, hat', ha, ha'] at hat
    have hvalue : value'.blank hidden path = value.blank hidden path := Option.some.inj hat
    rw [h.lower_eq settings hw hshown.symm, h'.lower_eq settings hw' hshown'.symm, hblank, hvalue]
  · rw [shown_describe_blank h, shown_describe_blank h', hblank]
  · rw [readable_blank h, readable_blank h', hblank]

/-! ## A vault -/

/-- A reference to what a text designates. -/
def referenceTo (text : String) : Json := .object [("$ref", .string text)]

/-- A response with a schema for JSON. -/
def jsonResponse (schema : Json) : Json :=
  .object [("content", .object [("application/json", .object [("schema", schema)])])]

/-- A list of accounts, each with a code of its own. -/
def vaultList (code : Json) : Json :=
  .object [("type", .string "array"), ("items", .object [("properties", .object [("code", code),
    ("account", referenceTo "#/components/schemas/Account")])])]

/-- An operation with a response that is a list, and one that is referred to. -/
def vaultListing (code : Json) : Json :=
  .object [("responses", .object [("200", jsonResponse (vaultList code)),
    ("404", referenceTo "#/components/responses/Missing")])]

/-- Accounts lead to each other, and each has a password. -/
def vaultSchemas (password : Json) : Json :=
  .object [
    ("Account", .object [("type", .string "object"), ("properties", .object [
      ("parent", referenceTo "#/components/schemas/Account"), ("password", password)])]),
    ("Secret", .object [("enum", .array [.string "s", .null])])]

/-- A document that lists accounts; its path item is referred to. -/
def vault (password code : Json) : Document :=
  ⟨"mem:/vault", .object [("openapi", .string "3.0.0"),
    ("paths", .object [("/accounts", referenceTo "#/x-items/accounts")]),
    ("x-items", .object [("accounts", .object [("get", vaultListing code)])]),
    ("components", .object [
      ("responses", .object [
        ("Missing", .object [("content", .object [("text/plain", .object [])])])]),
      ("schemas", vaultSchemas password)])]⟩

/-- The path to the schema of an item of the listed accounts. -/
def vaultItem : Path :=
  [.member "x-items", .member "accounts", .member "get", .member "responses", .member "200",
    .member "content", .member "application/json"] ++ [.member "schema"] ++ [.member "items"]

/-- Where the password and the code stand. -/
def vaultHidden : List Path :=
  [homePath "Account" ++ [.member "properties"] ++ [.member "password"],
    vaultItem ++ [.member "properties"] ++ [.member "code"]]

/-- A vault that says nothing of the code. -/
def plainVault : Document :=
  vault (.object [("type", .string "string"), ("writeOnly", .bool true)])
    (.object [("writeOnly", .bool true)])

/-- A vault whose hidden properties lead to further schemas. -/
def loadedVault : Document :=
  vault
    (.object [("writeOnly", .bool true), ("nullable", .bool true),
      ("$ref", .string "#/components/schemas/Secret")])
    (.object [("properties", .object [("owner", referenceTo "#/components/schemas/Account")]),
      ("writeOnly", .bool true)])

theorem schemaPlace_vaultItem : SchemaPlace vaultItem := .keyword (.declared _) (by decide)

theorem propertyPlace_vaultHidden : ∀ path ∈ vaultHidden, PropertyPlace path := by
  simp only [vaultHidden, List.forall_mem_cons]
  exact ⟨⟨_, _, .component "Account", rfl⟩, ⟨_, _, schemaPlace_vaultItem, rfl⟩,
    List.forall_mem_nil _⟩

theorem conceals_plainVault : plainVault.Conceals vaultHidden :=
  Document.conceals_of_check
    (Document.withholds_of_checked propertyPlace_vaultHidden (by decide +kernel))
    (by decide) (by decide) (by decide +kernel)

theorem conceals_loadedVault : loadedVault.Conceals vaultHidden :=
  Document.conceals_of_check
    (Document.withholds_of_checked propertyPlace_vaultHidden (by decide +kernel))
    (by decide) (by decide) (by decide +kernel)

theorem blank_plainVault :
    plainVault.root.blank vaultHidden [] = (vault Json.veil Json.veil).root := rfl

theorem blank_loadedVault :
    loadedVault.root.blank vaultHidden [] = (vault Json.veil Json.veil).root := rfl

/-- Both vaults are accepted and described, and responses show the same of them: the type of an item,
the types of both responses, and the variant of an account. -/
theorem responses_eq_vault :
    Document.ofTree plainVault.uri plainVault.root = .ok plainVault ∧
      Document.ofTree loadedVault.uri loadedVault.root = .ok loadedVault ∧
      ∃ value value' description description',
        plainVault.root.at? vaultItem = some value ∧ loadedVault.root.at? vaultItem = some value' ∧
        lower ⟨plainVault, {}⟩ { view := .response } (.ofJson value)
          = lower ⟨loadedVault, {}⟩ { view := .response } (.ofJson value') ∧
        describe ⟨plainVault, {}⟩ = .ok description ∧
        describe ⟨loadedVault, {}⟩ = .ok description' ∧
        description.shown = description'.shown ∧ description.shown ≠ [] ∧
        readable ⟨plainVault, {}⟩ = readable ⟨loadedVault, {}⟩ := by
  obtain ⟨hlower, hshown, hreadable⟩ :=
    responses_eq_of_blank_eq conceals_plainVault conceals_loadedVault
      (blank_plainVault.trans blank_loadedVault.symm) {}
  refine ⟨Document.ofTree_of_closed (by decide +kernel),
    Document.ofTree_of_closed (by decide +kernel), _, _, _, _, rfl, rfl, ?_, rfl, rfl,
    Option.some.inj hshown, ?_, hreadable⟩
  · exact hlower schemaPlace_vaultItem (by decide) rfl rfl
      (Document.pointsWhole_of_check (by decide)) (Document.pointsWhole_of_check (by decide)) false
  · exact List.cons_ne_nil _ _

/-! ## Properties in disguise -/

/-- A path item that is the `properties` of a schema, so that the property `get` is its operation. -/
def disguised (property : Json) : Document :=
  ⟨"mem:/r", .object [("openapi", .string "3.0.0"),
    ("paths", .object [("/a", referenceTo "#/components/schemas/X/properties")]),
    ("components", .object [("schemas", .object [
      ("X", .object [("properties", .object [("get", property)])])])])]⟩

/-- An operation that is write-only. -/
def secretOperation (responses : Json) : Json :=
  .object [("writeOnly", .bool true), ("responses", responses)]

/-- Where the operation stands. -/
def disguisedHidden : List Path := [homePath "X" ++ [.member "properties"] ++ [.member "get"]]

/-- A type with one value, which is itself a response whose schema has a property. -/
def enumeratedSchema (property : Json) : Json :=
  .object [("enum", .array [jsonResponse (.object [("properties", .object [("p", property)])])])]

/-- A response of this type, and the response that is its value. -/
def enumeratedResponses (property : Json) : Json :=
  .object [("200", jsonResponse (enumeratedSchema property)), ("201",
    referenceTo "#/paths/~1a/get/responses/200/content/application~1json/schema/enum/0")]

/-- A document with these two responses. -/
def enumerated (property : Json) : Document :=
  ⟨"mem:/r", .object [("openapi", .string "3.0.0"),
    ("paths", .object [("/a", .object [("get", .object [
      ("responses", enumeratedResponses property)])])])]⟩

/-- The path to the type. -/
def enumeratedPlace : Path :=
  [.member "paths", .member "/a", .member "get", .member "responses", .member "200",
    .member "content", .member "application/json"] ++ [.member "schema"]

/-- Where the property stands. -/
def enumeratedHidden : List Path :=
  [enumeratedPlace ++ [.member "enum", .item 0, .member "content", .member "application/json"]
    ++ [.member "schema"] ++ [.member "properties"] ++ [.member "p"]]

/-- A property of some type that is write-only. -/
def secret (type : String) : Json := .object [("writeOnly", .bool true), ("type", .string type)]

theorem propertyPlace_disguisedHidden : ∀ path ∈ disguisedHidden, PropertyPlace path := by
  simp only [disguisedHidden, List.forall_mem_singleton]
  exact ⟨_, _, .component "X", rfl⟩

theorem propertyPlace_enumeratedHidden : ∀ path ∈ enumeratedHidden, PropertyPlace path := by
  simp only [enumeratedHidden, List.forall_mem_singleton]
  exact ⟨_, _, .declared _, rfl⟩

theorem blank_disguised (responses : Json) :
    (disguised (secretOperation responses)).root.blank disguisedHidden []
      = (disguised Json.veil).root := rfl

theorem blank_enumerated (type : String) : (enumerated (secret type)).root.blank enumeratedHidden []
      = (enumerated Json.veil).root := rfl

/-- Without the conditions on what else a withheld property may be, it can be seen: as the operation of
a path item, in the responses, and in the value of an enumeration, in the type of the schema. -/
theorem shown_ne_and_lower_ne :
    ((disguised (secretOperation (.object []))).Withholds disguisedHidden ∧
      (disguised (secretOperation (.object [("200", .object [])]))).Withholds disguisedHidden ∧
      (disguised (secretOperation (.object []))).root.blank disguisedHidden []
        = (disguised (secretOperation (.object [("200", .object [])]))).root.blank
            disguisedHidden [] ∧
      (describe ⟨disguised (secretOperation (.object [])), {}⟩).toOption.map Description.shown
        ≠ (describe ⟨disguised (secretOperation (.object [("200", .object [])])),
            {}⟩).toOption.map Description.shown) ∧
    (enumerated (secret "string")).Withholds enumeratedHidden ∧
      (enumerated (secret "integer")).Withholds enumeratedHidden ∧
      (enumerated (secret "string")).root.blank enumeratedHidden []
        = (enumerated (secret "integer")).root.blank enumeratedHidden [] ∧
      ∃ value value', (enumerated (secret "string")).root.at? enumeratedPlace = some value ∧
        (enumerated (secret "integer")).root.at? enumeratedPlace = some value' ∧
        lower ⟨enumerated (secret "string"), {}⟩ { view := .response } (.ofJson value)
          ≠ lower ⟨enumerated (secret "integer"), {}⟩ { view := .response } (.ofJson value') := by
  refine ⟨⟨?_, ?_, (blank_disguised _).trans (blank_disguised _).symm, fun heq => ?_⟩, ?_, ?_,
    (blank_enumerated _).trans (blank_enumerated _).symm, enumeratedSchema (secret "string"),
    enumeratedSchema (secret "integer"), rfl, rfl, fun heq => ?_⟩
  · exact Document.withholds_of_checked propertyPlace_disguisedHidden (by decide +kernel)
  · exact Document.withholds_of_checked propertyPlace_disguisedHidden (by decide +kernel)
  · -- the one operation has no response in one of the documents
    have hlengths := congrArg (Option.map (List.map fun shown => shown.2.2.length)) heq
    exact absurd hlengths (by decide +kernel)
  · exact Document.withholds_of_checked propertyPlace_enumeratedHidden (by decide +kernel)
  · exact Document.withholds_of_checked propertyPlace_enumeratedHidden (by decide +kernel)
  · -- the type is a literal with the text of the value
    have htexts := TypeExpr.literal.inj (Option.some.inj heq)
    exact absurd htexts (by decide +kernel)

end Api

end OpenApi
