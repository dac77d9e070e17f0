import OpenApi.Proofs.Endpoint.Declarations

/-!
# Which errors a description can have

An accepted document resolves all its references, so one would think that describing it cannot meet
an unresolved one. But references are recognised twice. Acceptance looks for objects whose `$ref` is a
string; the components of endpoints are read by a different rule, which also takes an array for an
object. A reference written as an array is invisible to the one and followed by the other.

That is the only difference. What the second rule takes for a reference and is no array, the first
has seen too, wherever in a chain of references it stands, so describing fails with nothing but parse
faults: `describe_eq_ok_or_parse`.
-/

namespace OpenApi

/-! ## Components as they are written -/

/-- The items of a member, where it is an array. -/
def Members.itemsOf (members : Members) (name : String) : List Json :=
  ((members.lookup name).bind Json.asArray?).getD []

/-- The members of a member, where it is an object. -/
def Members.entriesOf (members : Members) (name : String) : Members :=
  ((members.lookup name).bind Json.asObject?).getD []

/-- The values of a member, where it is an object. -/
def Members.valuesOf (members : Members) (name : String) : List Json :=
  (((members.lookup name).bind Json.asObject?).getD []).map Prod.snd

/-- The parameters, the request body and the responses of an operation, as they are written. -/
def operationEntries (value : Json) : List Json :=
  let members := (membersOf? Operation.fields value).getD []
  members.itemsOf "parameters" ++ (members.lookup "requestBody").toList
    ++ members.valuesOf "responses"

/-- The parameters, request bodies and responses of a path item, as they are written. -/
def itemEntries (value : Json) : List Json :=
  let members := (membersOf? PathItem.fields value).getD []
  members.itemsOf "parameters" ++
    Method.all.flatMap fun method => ((members.lookup method.name).map operationEntries).getD []

/-- The parameters, request bodies and responses of the path items that `paths` leads to, as they are
written. -/
def Document.entries (doc : Document) : List Json :=
  (doc.paths?.getD []).flatMap fun (path, value) =>
    if Api.isExtension path then [] else ((doc.deref value).map itemEntries).getD []

/-- The values that are read as parameters, request bodies or responses: those written in path items,
and those that references lead to from there. -/
inductive Document.Component (doc : Document) : Json → Prop where
  | entry {value} (h : value ∈ doc.entries) : Component doc value
  | target {value pointer found} (h : Component doc value)
      (hp : referencePointer? value = some pointer) (hr : doc.resolve? pointer = some found) :
      Component doc found

/-- A component is what an entry is read as. -/
def OrReference.From {α : Type} (entries : List Json) (read : Json → Option α)
    (written : OrReference α) : Prop :=
  ∃ entry ∈ entries, OrReference.ofJson? read entry = some written

/-- The components of an operation are what entries are read as. -/
structure Operation.From (entries : List Json) (operation : Operation) : Prop where
  parameters : ∀ written ∈ operation.parameters, written.From entries ParameterObject.ofJson?
  requestBody : ∀ written ∈ operation.requestBody, written.From entries RequestBodyObject.ofJson?
  responses : ∀ response ∈ operation.responses, response.2.From entries ResponseObject.ofJson?

/-- The components of a path item are what entries are read as. -/
structure PathItem.From (entries : List Json) (item : PathItem) : Prop where
  parameters : ∀ written ∈ item.parameters, written.From entries ParameterObject.ofJson?
  operations : ∀ operation ∈ item.operations, operation.2.From entries

section

variable {α : Type} {members : Members} {name : String} {read : Json → Option α}

theorem forall₂_itemsOf {found : List α}
    (h : readDefault members name [] (readItems read) = some found) :
    List.Forall₂ (fun item a => read item = some a) (members.itemsOf name) found := by
  rw [readDefault] at h
  rw [Members.itemsOf]
  cases hl : members.lookup name with
  | none =>
      rw [hl] at h
      cases h
      exact .nil
  | some value =>
      rw [hl] at h
      obtain ⟨items, hitems, h⟩ := Option.bind_eq_some_iff.mp h
      rw [Option.bind_some, hitems]
      exact forall₂_of_mapM h

theorem forall₂_entriesOf {found : List (String × α)}
    (h : readDefault members name [] (readEntries read) = some found) :
    List.Forall₂ (fun entry a => a.1 = entry.1 ∧ read entry.2 = some a.2) (members.entriesOf name)
      found := by
  rw [readDefault] at h
  rw [Members.entriesOf]
  cases hl : members.lookup name with
  | none =>
      rw [hl] at h
      cases h
      exact .nil
  | some value =>
      rw [hl] at h
      obtain ⟨own, hown, h⟩ := Option.bind_eq_some_iff.mp h
      rw [Option.bind_some, hown]
      refine (forall₂_of_mapM h).imp fun entry a he => ?_
      obtain ⟨a', hread, rfl⟩ := Option.map_eq_some_iff.mp he
      exact ⟨rfl, hread⟩

theorem exists_of_mem_readItems {found : List α}
    (h : readDefault members name [] (readItems read) = some found) {a : α} (ha : a ∈ found) :
    ∃ item ∈ members.itemsOf name, read item = some a :=
  exists_of_forall₂ (forall₂_itemsOf h) ha

theorem exists_of_mem_readEntries {found : List (String × α)}
    (h : readDefault members name [] (readEntries read) = some found) {entry : String × α}
    (he : entry ∈ found) : ∃ value ∈ members.valuesOf name, read value = some entry.2 := by
  obtain ⟨own, hm, _, hread⟩ := exists_of_forall₂ (forall₂_entriesOf h) he
  exact ⟨own.2, List.mem_map_of_mem (f := Prod.snd) hm, hread⟩

theorem exists_of_readOptional {a : α} (h : readOptional members name read = some (some a)) :
    ∃ value ∈ (members.lookup name).toList, read value = some a := by
  rw [readOptional.eq_def] at h
  split at h
  · cases h
  · cases h
  · next value _ hl =>
      obtain ⟨a', hread, heq⟩ := Option.map_eq_some_iff.mp h
      cases heq
      exact ⟨value, Option.mem_toList.mpr hl, hread⟩

end

/-- What is read of an operation comes from its entries. -/
theorem from_operationEntries {value : Json} {operation : Operation}
    (h : Operation.ofJson? value = some operation) : operation.From (operationEntries value) := by
  obtain ⟨members, hm, h⟩ := Operation.exists_readFrom h
  have hentries : operationEntries value = members.itemsOf "parameters"
      ++ (members.lookup "requestBody").toList ++ members.valuesOf "responses" := by
    rw [operationEntries, hm]
    rfl
  rw [hentries]
  refine ⟨fun written hw => ?_, fun written hw => ?_, fun response hr => ?_⟩
  · obtain ⟨entry, he, hread⟩ := exists_of_mem_readItems h.parameters hw
    exact ⟨entry, List.mem_append_left _ (List.mem_append_left _ he), hread⟩
  · obtain ⟨entry, he, hread⟩ := exists_of_readOptional (h.requestBody.trans (congrArg some hw))
    exact ⟨entry, List.mem_append_left _ (List.mem_append_right _ he), hread⟩
  · obtain ⟨entry, he, hread⟩ := exists_of_mem_readEntries h.responses hr
    exact ⟨entry, List.mem_append_right _ he, hread⟩

theorem OrReference.From.mono {α : Type} {entries entries' : List Json} {read : Json → Option α}
    {written : OrReference α} (h : written.From entries read) (hsub : entries ⊆ entries') :
    written.From entries' read := by
  obtain ⟨entry, he, hread⟩ := h
  exact ⟨entry, hsub he, hread⟩

theorem Operation.From.mono {entries entries' : List Json} {operation : Operation}
    (h : operation.From entries) (hsub : entries ⊆ entries') : operation.From entries' where
  parameters written hw := (h.parameters written hw).mono hsub
  requestBody written hw := (h.requestBody written hw).mono hsub
  responses response hr := (h.responses response hr).mono hsub

/-- What is read of a path item comes from its entries. -/
theorem from_itemEntries {value : Json} {item : PathItem} (h : PathItem.ofJson? value = some item) :
    item.From (itemEntries value) := by
  rcases PathItem.eq_null_or_exists_readFrom h with ⟨_, rfl⟩ | ⟨members, hm, h⟩
  · exact ⟨List.forall_mem_nil _, List.forall_mem_nil _⟩
  · have hentries : itemEntries value = members.itemsOf "parameters" ++ Method.all.flatMap
        fun method => ((members.lookup method.name).map operationEntries).getD [] := by
      rw [itemEntries, hm]
      rfl
    rw [hentries]
    refine ⟨fun written hw => ?_, fun entry he => ?_⟩
    · obtain ⟨entry, he, hread⟩ := exists_of_mem_readItems h.parameters hw
      exact ⟨entry, List.mem_append_left _ he, hread⟩
    · -- an operation is that of one method
      obtain ⟨method, hmethod, hread⟩ := h.exists_method he
      obtain ⟨own, hown, hread⟩ := exists_of_readOptional hread
      refine (from_operationEntries hread).mono fun entry he => List.mem_append_right _ ?_
      refine List.mem_flatMap.mpr ⟨method, hmethod, ?_⟩
      rw [Option.mem_toList.mp hown]
      exact he

/-! ## References of components are references of the tree -/

theorem references_subset_of_mem_itemsOf {texts : List String} {members : Members} {name : String}
    (h : MembersWithin texts members) {item : Json} (hm : item ∈ members.itemsOf name) :
    item.references ⊆ texts := by
  unfold Members.itemsOf at hm
  cases hl : members.lookup name with
  | none =>
      rw [hl] at hm
      cases hm
  | some value =>
      rw [hl] at hm
      cases value with
      | array items =>
          have hitems := h hl
          rw [Json.references] at hitems
          exact List.Subset.trans (Json.references_subset_of_mem_items hm) hitems
      | _ => cases hm

theorem references_subset_of_mem_valuesOf {texts : List String} {members : Members} {name : String}
    (h : MembersWithin texts members) {value : Json} (hm : value ∈ members.valuesOf name) :
    value.references ⊆ texts := by
  obtain ⟨⟨key, child⟩, hentry, rfl⟩ := List.mem_map.mp hm
  cases hl : members.lookup name with
  | none =>
      rw [hl] at hentry
      cases hentry
  | some own =>
      rw [hl] at hentry
      cases own with
      | object found => exact List.Subset.trans (Json.references_subset_of_mem_object hentry) (h hl)
      | _ => cases hentry

/-- The members that are read of a value, none where it cannot be read, are parts of it. -/
theorem within_membersOf (fields : List (String × Bool)) (value : Json) :
    MembersWithin value.references ((membersOf? fields value).getD []) := by
  intro name child hl
  cases hm : membersOf? fields value with
  | none =>
      rw [hm] at hl
      cases hl
  | some members =>
      rw [hm] at hl
      exact reads_membersOf fields (List.Subset.refl _) hm hl

theorem references_subset_of_mem_operationEntries {value entry : Json}
    (h : entry ∈ operationEntries value) : entry.references ⊆ value.references := by
  have hwithin := within_membersOf Operation.fields value
  rcases List.mem_append.mp h with h | h
  · rcases List.mem_append.mp h with h | h
    · exact references_subset_of_mem_itemsOf hwithin h
    · exact hwithin (Option.mem_toList.mp h)
  · exact references_subset_of_mem_valuesOf hwithin h

theorem references_subset_of_mem_itemEntries {value entry : Json} (h : entry ∈ itemEntries value) :
    entry.references ⊆ value.references := by
  have hwithin := within_membersOf PathItem.fields value
  rcases List.mem_append.mp h with h | h
  · exact references_subset_of_mem_itemsOf hwithin h
  · obtain ⟨method, _, h⟩ := List.mem_flatMap.mp h
    cases hl : ((membersOf? PathItem.fields value).getD []).lookup method.name with
    | none =>
        rw [hl] at h
        cases h
    | some operation =>
        rw [hl] at h
        exact List.Subset.trans (references_subset_of_mem_operationEntries h) (hwithin hl)

namespace Document

variable {doc : Document}

theorem references_subset_of_mem_entries {value : Json} (h : value ∈ doc.entries) :
    value.references ⊆ doc.root.references := by
  obtain ⟨⟨path, item⟩, hm, h⟩ := List.mem_flatMap.mp h
  dsimp only at h
  split at h
  · cases h
  · cases hd : doc.deref item with
    | none =>
        rw [hd] at h
        cases h
    | some found =>
        rw [hd] at h
        exact List.Subset.trans (references_subset_of_mem_itemEntries h)
          (references_subset_of_deref (references_subset_of_mem_paths hm) hd)

/-- The references of a component are references of the document. -/
theorem Component.references_subset {value : Json} (h : doc.Component value) :
    value.references ⊆ doc.root.references := by
  cases h with
  | entry h => exact references_subset_of_mem_entries h
  | target _ _ hr => exact references_subset_of_resolve? hr

end Document

/-- The pointer of a reference is a text member of the object that is read. -/
theorem exists_of_referencePointer? {value : Json} {pointer : String}
    (h : referencePointer? value = some pointer) :
    ∃ fields members, membersOf? fields value = some members ∧
      readMember members "$ref" Json.asString? = some pointer := by
  obtain ⟨members, hm, h⟩ := Option.bind_eq_some_iff.mp h
  obtain ⟨found, hfound, h⟩ := Option.bind_eq_some_iff.mp h
  obtain ⟨_, _, h⟩ := Option.bind_eq_some_iff.mp h
  obtain ⟨_, _, h⟩ := Option.bind_eq_some_iff.mp h
  cases h
  exact ⟨_, members, hm, hfound⟩

/-- What reading takes for a reference, and is no array, is a Reference Object. -/
theorem reference?_of_referencePointer? {value : Json} {pointer : String}
    (ha : value.asArray? = none) (h : referencePointer? value = some pointer) :
    value.reference? = some pointer := by
  obtain ⟨_, members, hm, hfound⟩ := exists_of_referencePointer? h
  cases value with
  | object own =>
      cases hm
      exact hfound
  | array items => cases ha
  | _ => cases hm

theorem referencePointer?_of_ofJson? {α : Type} {read : Json → Option α} {value : Json}
    {pointer : String} (h : OrReference.ofJson? read value = some (.reference pointer)) :
    referencePointer? value = some pointer := by
  unfold OrReference.ofJson? at h
  split at h
  · next found hp =>
      cases h
      exact hp
  · obtain ⟨a, _, heq⟩ := Option.map_eq_some_iff.mp h
    cases heq

/-! ## Failing with parse faults only -/

/-- Whatever goes wrong is a parse fault. -/
def FailsParsing {α : Type} (x : Except Error α) : Prop :=
  ∀ ⦃error⦄, x = .error error → ∃ fault, error = .parse fault

section

variable {α β : Type}

theorem failsParsing_ok (a : α) : FailsParsing (.ok a) := by
  intro error h
  cases h

theorem failsParsing_error (fault : ParseFault) :
    FailsParsing (.error (.parse fault) : Except Error α) := by
  intro error h
  cases h
  exact ⟨fault, rfl⟩

theorem FailsParsing.bind {x : Except Error α} {f : α → Except Error β} (hx : FailsParsing x)
    (hf : ∀ a, x = .ok a → FailsParsing (f a)) : FailsParsing (x >>= f) := by
  intro error h
  cases hcase : x with
  | error own =>
      rw [hcase] at h
      cases h
      exact hx hcase
  | ok a =>
      rw [hcase] at h
      exact hf a hcase h

theorem failsParsing_mapM {list : List α} {f : α → Except Error β}
    (hf : ∀ a ∈ list, FailsParsing (f a)) : FailsParsing (list.mapM f) := by
  induction list with
  | nil => exact failsParsing_ok []
  | cons a rest ih =>
      rw [List.mapM_cons]
      refine (hf a List.mem_cons_self).bind fun b _ => ?_
      refine (ih fun a' ha' => hf a' (List.mem_cons_of_mem _ ha')).bind fun results _ => ?_
      exact failsParsing_ok (b :: results)

end

/-- Every reference of the document resolves in it. -/
def Document.Closed (doc : Document) : Prop :=
  ∀ text ∈ doc.root.references, (doc.resolve? text).isSome = true

/-- No component is an array. -/
def Document.ComponentsPlain (doc : Document) : Prop :=
  ∀ ⦃value⦄, doc.Component value → value.asArray? = none

namespace Document

variable {doc : Document} {α : Type} {kind : ComponentKind} {read : Json → Option α}

/-- A reference between components leads somewhere. -/
theorem Component.exists_target (hclosed : doc.Closed) (hplain : doc.ComponentsPlain) {value : Json}
    (h : doc.Component value) {pointer : String} (hp : referencePointer? value = some pointer) :
    ∃ found, doc.resolve? pointer = some found ∧ doc.Component found := by
  have hr := reference?_of_referencePointer? (hplain h) hp
  have hm := h.references_subset (Json.mem_references_of_reference? hr)
  obtain ⟨found, hfound⟩ := Option.isSome_iff_exists.mp (hclosed pointer hm)
  exact ⟨found, hfound, h.target hp hfound⟩

/-- It is enough that no entry is an array and that no reference leads to one. -/
theorem componentsPlain_of_check (hentries : ∀ value ∈ doc.entries, value.asArray?.isNone = true)
    (htargets : ∀ text ∈ doc.root.references,
      ((doc.resolve? text).bind Json.asArray?).isNone = true) : doc.ComponentsPlain := by
  intro value h
  induction h with
  | entry h => exact Option.isNone_iff_eq_none.mp (hentries _ h)
  | target h hp hr ih =>
      have hm := h.references_subset
        (Json.mem_references_of_reference? (reference?_of_referencePointer? ih hp))
      have hfound := htargets _ hm
      rw [hr] at hfound
      exact Option.isNone_iff_eq_none.mp hfound

/-- A chain of references ends at a component, at a reference that was met before, or at a value of
another shape. -/
theorem failsParsing_followComponent (hclosed : doc.Closed) (hplain : doc.ComponentsPlain)
    (fuel : Nat) (seen : List String) {value : Json} (h : doc.Component value) {pointer : String}
    (hp : referencePointer? value = some pointer) :
    FailsParsing (doc.followComponent kind read fuel seen pointer) := by
  induction fuel generalizing seen value pointer with
  | zero => exact failsParsing_error _
  | succ fuel ih =>
      obtain ⟨found, hfound, hcomponent⟩ := h.exists_target hclosed hplain hp
      rw [followComponent, hfound]
      split
      · exact failsParsing_error _
      · dsimp only
        split
        · exact failsParsing_error _
        · exact failsParsing_ok _
        · next next hnext => exact ih _ hcomponent (referencePointer?_of_ofJson? hnext)

theorem failsParsing_component (hclosed : doc.Closed) (hplain : doc.ComponentsPlain)
    {entries : List Json} (hentries : ∀ entry ∈ entries, doc.Component entry)
    {written : OrReference α} (h : written.From entries read) :
    FailsParsing (doc.component kind read written) := by
  obtain ⟨entry, he, hread⟩ := h
  cases written with
  | value own => exact failsParsing_ok own
  | reference pointer =>
      exact failsParsing_followComponent hclosed hplain _ _ (hentries entry he)
        (referencePointer?_of_ofJson? hread)

theorem failsParsing_pathItem (path : String) (value : Json) :
    FailsParsing (doc.pathItem path value) := by
  unfold pathItem
  split
  · exact failsParsing_error _
  · split
    · exact failsParsing_error _
    · exact failsParsing_ok _

/-- A path item that is reached has its entries among those of the document. -/
theorem exists_from_of_pathItem {path : String} {value : Json}
    (hm : (path, value) ∈ doc.paths?.getD []) (hx : Api.isExtension path = false) {item : PathItem}
    (h : doc.pathItem path value = .ok item) :
    ∃ entries, item.From entries ∧ ∀ entry ∈ entries, doc.Component entry := by
  unfold pathItem at h
  split at h
  · cases h
  · next target ht =>
      split at h
      · cases h
      · next found hread =>
          cases h
          refine ⟨itemEntries target, from_itemEntries hread, fun entry he => .entry ?_⟩
          refine List.mem_flatMap.mpr ⟨(path, value), hm, ?_⟩
          dsimp only
          rw [hx, if_neg Bool.false_ne_true, ht]
          exact he

end Document

namespace Api

variable {api : Api} {entries : List Json}

/-- An operation fails only if reading its components does. -/
theorem failsParsing_endpoint (hclosed : api.document.Closed)
    (hplain : api.document.ComponentsPlain)
    (hentries : ∀ entry ∈ entries, api.document.Component entry) {item : PathItem}
    (hi : item.From entries) (path : String) {method : Method} {operation : Operation}
    (hm : (method, operation) ∈ item.operations) :
    FailsParsing (api.endpoint path item.parameters method operation) := by
  have ho := hi.operations _ hm
  have hparameters : ∀ written ∈ item.parameters ++ operation.parameters,
      written.From entries ParameterObject.ofJson? := by
    intro written hw
    exact (List.mem_append.mp hw).elim (hi.parameters written) (ho.parameters written)
  refine FailsParsing.bind ?_ fun parameters _ => FailsParsing.bind ?_ fun body _ =>
    FailsParsing.bind ?_ fun responses _ => failsParsing_ok _
  · refine FailsParsing.bind (failsParsing_mapM fun written hw => ?_) fun _ _ => failsParsing_ok _
    exact Document.failsParsing_component hclosed hplain hentries (hparameters written hw)
  · cases hbody : operation.requestBody with
    | none => exact failsParsing_ok none
    | some written =>
        refine FailsParsing.bind ?_ fun _ _ => failsParsing_ok _
        refine FailsParsing.bind ?_ fun _ _ => failsParsing_ok _
        exact Document.failsParsing_component hclosed hplain hentries
          (ho.requestBody written hbody)
  · refine failsParsing_mapM fun (key, written) hr => ?_
    refine FailsParsing.bind ?_ fun _ _ => failsParsing_ok _
    exact Document.failsParsing_component hclosed hplain hentries (ho.responses _ hr)

theorem failsParsing_endpoints (hclosed : api.document.Closed)
    (hplain : api.document.ComponentsPlain) : FailsParsing api.endpoints := by
  refine FailsParsing.bind (failsParsing_mapM fun (path, value) hm => ?_)
    fun _ _ => failsParsing_ok _
  obtain ⟨hm, hx⟩ := List.mem_filter.mp hm
  refine (Document.failsParsing_pathItem path value).bind fun item hitem => ?_
  obtain ⟨entries, hi, hentries⟩ :=
    Document.exists_from_of_pathItem hm (by simpa using hx) hitem
  exact failsParsing_mapM fun (method, operation) ho =>
    failsParsing_endpoint hclosed hplain hentries hi path ho

/-- Take an accepted document none of whose components is an array. Under any settings it has a
description, or describing it ends with a parse fault; no other error is possible. -/
theorem describe_eq_ok_or_parse {uri : String} {root : Json} {doc : Document}
    (hdoc : Document.ofTree uri root = .ok doc)
    (hplain : ∀ value, doc.Component value → value.asArray? = none) (settings : Settings) :
    (∃ description, describe ⟨doc, settings⟩ = .ok description) ∨
      ∃ fault, describe ⟨doc, settings⟩ = .error (.parse fault) := by
  have hclosed : doc.Closed := by
    obtain ⟨rfl, hresolves⟩ := Document.ofTree_eq_ok hdoc
    exact hresolves
  have hfails : FailsParsing (describe ⟨doc, settings⟩) :=
    (@failsParsing_endpoints ⟨doc, settings⟩ hclosed hplain).bind
      fun _ _ => failsParsing_ok _
  cases hd : describe ⟨doc, settings⟩ with
  | ok description => exact .inl ⟨description, rfl⟩
  | error error =>
      obtain ⟨fault, rfl⟩ := hfails hd
      exact .inr ⟨fault, rfl⟩

/-- Everything of the one operation is referred to, its path item included; the responses refer to each
other and to nothing else. -/
def relayed : Json :=
  .object [("openapi", .string "3.0.0"),
    ("paths", .object [("/a", .object [("$ref", .string "#/x-items/a")])]),
    ("x-items", .object [("a", .object [("post", .object [
      ("parameters", .array [.object [("$ref", .string "#/components/parameters/P")]]),
      ("requestBody", .object [("$ref", .string "#/components/requestBodies/B")]),
      ("responses", .object [("200", .object [("$ref", .string "#/components/responses/R")])])])])]),
    ("components", .object [
      ("parameters", .object [("P", .object [("name", .string "p"), ("in", .string "query")])]),
      ("requestBodies", .object [("B", .object [])]),
      ("responses", .object [("R", .object [("$ref", .string "#/components/responses/S"),
          ("summary", .string "relayed")]),
        ("S", .object [("$ref", .string "#/components/responses/R")])])])]

/-- The document is accepted, and describing it ends with the cycle of the responses. -/
theorem describe_relayed :
    Document.ofTree "mem:/r" relayed = .ok ⟨"mem:/r", relayed⟩ ∧
      (∀ value, Document.Component ⟨"mem:/r", relayed⟩ value → value.asArray? = none) ∧
      (Document.entries ⟨"mem:/r", relayed⟩).length = 3 ∧
      ∃ fault, describe ⟨⟨"mem:/r", relayed⟩, {}⟩ = .error (.parse fault) := by
  have hdoc : Document.ofTree "mem:/r" relayed = .ok ⟨"mem:/r", relayed⟩ := rfl
  have hplain : Document.ComponentsPlain ⟨"mem:/r", relayed⟩ :=
    Document.componentsPlain_of_check (by decide) (by decide)
  refine ⟨hdoc, hplain, by decide, ?_⟩
  rcases describe_eq_ok_or_parse hdoc hplain {} with ⟨description, h⟩ | hfault
  · cases h
  · exact hfault

/-- A reference that is written as an array is followed without having been checked. -/
example :
    let root : Json := .object [("paths", .object [("/a", .object [("get", .object [
      ("responses", .object [("200", .array [.string "#/nowhere"])])])])])]
    Document.ofTree "mem:/r" root = .ok ⟨"mem:/r", root⟩ ∧
      describe ⟨⟨"mem:/r", root⟩, {}⟩ = .error (.unresolvedReference "#/nowhere" "mem:/r") :=
  ⟨rfl, rfl⟩

end Api

end OpenApi
