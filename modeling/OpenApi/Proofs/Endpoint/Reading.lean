import Mathlib.Data.List.Forall2
import OpenApi.Endpoint.Resolution
import OpenApi.Proofs.Document.Chain

/-!
# What is read from a document comes from its tree

Path items, operations and components are read from values of the document, and the schemas that they
hold are parts of those values. All that matters of this for schemas is which references they hold:
`Reads` says of a way of reading that it makes nothing with other references than the value has.
Which members an operation and a path item are read from is said once for all proofs, by
`Operation.ReadFrom` and `PathItem.ReadFrom`.

References between components lead from value to value of the same tree, so the schemas of
components that are referred to are parts of the tree too.
-/

namespace OpenApi

/-- Reading a value all of whose references are among some texts gives only what has a property. -/
def Reads {α : Type} (texts : List String) (read : Json → Option α) (P : α → Prop) : Prop :=
  ∀ ⦃value a⦄, value.references ⊆ texts → read value = some a → P a

/-- The values of some members have only references among some texts. -/
def MembersWithin (texts : List String) (members : Members) : Prop :=
  ∀ ⦃name value⦄, members.lookup name = some value → value.references ⊆ texts

section

variable {α : Type} {texts : List String} {read : Json → Option α} {P : α → Prop}

theorem forall₂_of_mapM {β : Type} {f : α → Option β} {list : List α} {results : List β}
    (h : list.mapM f = some results) : List.Forall₂ (fun a b => f a = some b) list results := by
  induction list generalizing results with
  | nil =>
      cases h
      exact .nil
  | cons a rest ih =>
      rw [List.mapM_cons] at h
      obtain ⟨b, ha, h⟩ := Option.bind_eq_some_iff.mp h
      obtain ⟨others, hrest, h⟩ := Option.bind_eq_some_iff.mp h
      cases h
      exact .cons ha (ih hrest)

/-- What stands in the second of two related lists is related to something in the first. -/
theorem exists_of_forall₂ {β : Type} {R : α → β → Prop} {list : List α} {list' : List β}
    (h : List.Forall₂ R list list') {b : β} (hb : b ∈ list') : ∃ a ∈ list, R a b := by
  induction h with
  | nil => cases hb
  | @cons a _ _ _ hab _ ih =>
      rcases List.mem_cons.mp hb with rfl | hb
      · exact ⟨a, List.mem_cons_self, hab⟩
      · obtain ⟨a', hm, hab'⟩ := ih hb
        exact ⟨a', List.mem_cons_of_mem _ hm, hab'⟩

theorem exists_of_mem_mapM {β : Type} {f : α → Option β} {list : List α} {results : List β}
    (h : list.mapM f = some results) {b : β} (hb : b ∈ results) : ∃ a ∈ list, f a = some b :=
  exists_of_forall₂ (forall₂_of_mapM h) hb

/-! ## Members -/

theorem mem_of_mem_positional {members : List (String × Bool)} {items : List Json} {found : Members}
    (h : positional? members items = some found) {entry : String × Json} (hm : entry ∈ found) :
    entry.2 ∈ items := by
  fun_induction positional? members items generalizing found with
  | case1 =>
      cases h
      simp at hm
  | case2 => simp at h
  | case3 _ _ ih => exact ih h hm
  | case4 => simp at h
  | case5 name _ rest item items ih =>
      obtain ⟨found', hfound, rfl⟩ := Option.map_eq_some_iff.mp h
      rcases List.mem_cons.mp hm with rfl | hm
      · exact List.mem_cons_self
      · exact List.mem_cons_of_mem _ (ih hfound hm)

/-- The members of an object in either form are parts of it. -/
theorem reads_membersOf (members : List (String × Bool)) :
    Reads texts (membersOf? members) (MembersWithin texts) := by
  intro value found hv h name child hl
  have hm := mem_of_lookup hl
  cases value with
  | object own =>
      cases h
      rw [Json.references, List.append_subset] at hv
      exact List.Subset.trans (Json.references_subset_of_mem_members hm) hv.2
  | array items =>
      unfold Json.references at hv
      exact List.Subset.trans (Json.references_subset_of_mem_items (mem_of_mem_positional h hm)) hv
  | _ => cases h

theorem of_readOptional {members : Members} {name : String} {a? : Option α}
    (hread : Reads texts read P) (hm : MembersWithin texts members)
    (h : readOptional members name read = some a?) {a : α} (ha : a? = some a) : P a := by
  rw [readOptional.eq_def] at h
  split at h
  · cases h
    simp at ha
  · cases h
    simp at ha
  · next value hl =>
      obtain ⟨a', hr, rfl⟩ := Option.map_eq_some_iff.mp h
      cases ha
      exact hread (hm hl) hr

theorem of_readDefault {members : Members} {name : String} {default a : α}
    (hread : Reads texts read P) (hd : P default) (hm : MembersWithin texts members)
    (h : readDefault members name default read = some a) : P a := by
  unfold readDefault at h
  split at h
  · cases h
    exact hd
  · next value hl => exact hread (hm hl) h

theorem Reads.items (hread : Reads texts read P) :
    Reads texts (readItems read) fun found => ∀ a ∈ found, P a := by
  intro value found hv h a ha
  obtain ⟨items, hitems, h⟩ := Option.bind_eq_some_iff.mp h
  obtain ⟨item, hm, hr⟩ := exists_of_mem_mapM h ha
  cases value with
  | array own =>
      cases hitems
      unfold Json.references at hv
      exact hread (List.Subset.trans (Json.references_subset_of_mem_items hm) hv) hr
  | _ => cases hitems

theorem Reads.entries (hread : Reads texts read P) :
    Reads texts (readEntries read) fun found => ∀ entry ∈ found, P entry.2 := by
  intro value found hv h entry he
  obtain ⟨members, hmembers, h⟩ := Option.bind_eq_some_iff.mp h
  obtain ⟨⟨name, child⟩, hm, hentry⟩ := exists_of_mem_mapM h he
  obtain ⟨a, hr, rfl⟩ := Option.map_eq_some_iff.mp hentry
  cases value with
  | object own =>
      cases hmembers
      rw [Json.references, List.append_subset] at hv
      exact hread (List.Subset.trans (Json.references_subset_of_mem_members hm) hv.2) hr
  | _ => cases hmembers

/-- What a component written in place has, a reference to a component need not have. -/
def OrReference.Holds (P : α → Prop) (written : OrReference α) : Prop :=
  ∀ ⦃a⦄, written = .value a → P a

theorem Reads.orReference (hread : Reads texts read P) :
    Reads texts (OrReference.ofJson? read) (OrReference.Holds P) := by
  intro value written hv h a ha
  unfold OrReference.ofJson? at h
  split at h
  · cases h
    simp at ha
  · obtain ⟨a', hr, rfl⟩ := Option.map_eq_some_iff.mp h
    cases ha
    exact hread hv hr

end

/-! ## Objects that are read -/

/-- The members of an Operation Object that are read. -/
def Operation.fields : List (String × Bool) :=
  [("operationId", false), ("parameters", true), ("requestBody", false), ("responses", true)]

/-- The members of a Path Item Object that are read. -/
def PathItem.fields : List (String × Bool) :=
  ("parameters", true) :: Method.all.map fun method => (method.name, false)

/-- An operation is what is read from some members. -/
structure Operation.ReadFrom (members : Members) (operation : Operation) : Prop where
  operationId : readOptional members "operationId" Json.asString? = some operation.operationId
  parameters : readDefault members "parameters" [] readParameters = some operation.parameters
  requestBody : readOptional members "requestBody" (OrReference.ofJson? RequestBodyObject.ofJson?)
    = some operation.requestBody
  responses : readDefault members "responses" [] readResponses = some operation.responses

/-- A path item is what is read from some members. -/
structure PathItem.ReadFrom (members : Members) (item : PathItem) : Prop where
  parameters : readDefault members "parameters" [] readParameters = some item.parameters
  operations : ∃ found, Method.all.mapM (readOperation members) = some found ∧
    item.operations = found.flatten

theorem Operation.exists_readFrom {value : Json} {operation : Operation}
    (h : Operation.ofJson? value = some operation) :
    ∃ members, membersOf? Operation.fields value = some members ∧ operation.ReadFrom members := by
  obtain ⟨members, hm, h⟩ := Option.bind_eq_some_iff.mp h
  obtain ⟨operationId, hid, h⟩ := Option.bind_eq_some_iff.mp h
  obtain ⟨parameters, hparameters, h⟩ := Option.bind_eq_some_iff.mp h
  obtain ⟨requestBody, hbody, h⟩ := Option.bind_eq_some_iff.mp h
  obtain ⟨responses, hresponses, h⟩ := Option.bind_eq_some_iff.mp h
  cases h
  exact ⟨members, hm, hid, hparameters, hbody, hresponses⟩

/-- A path item that is null is read as an empty one. -/
theorem PathItem.eq_null_or_exists_readFrom {value : Json} {item : PathItem}
    (h : PathItem.ofJson? value = some item) :
    (value = .null ∧ item = {}) ∨
      ∃ members, membersOf? PathItem.fields value = some members ∧ item.ReadFrom members := by
  rw [PathItem.ofJson?.eq_def] at h
  split at h
  · cases h
    exact .inl ⟨rfl, rfl⟩
  · obtain ⟨members, hm, h⟩ := Option.bind_eq_some_iff.mp h
    obtain ⟨parameters, hparameters, h⟩ := Option.bind_eq_some_iff.mp h
    obtain ⟨operations, hoperations, h⟩ := Option.bind_eq_some_iff.mp h
    cases h
    exact .inr ⟨members, hm, hparameters, operations, hoperations, rfl⟩

/-- An operation of a path item is read from the member of its method. -/
theorem PathItem.ReadFrom.exists_method {members : Members} {item : PathItem}
    (h : item.ReadFrom members) {entry : Method × Operation} (he : entry ∈ item.operations) :
    ∃ method ∈ Method.all,
      readOptional members method.name Operation.ofJson? = some (some entry.2) := by
  obtain ⟨found, hfound, heq⟩ := h.operations
  obtain ⟨own, hown, he⟩ := List.mem_flatten.mp (heq ▸ he)
  obtain ⟨method, hmethod, hr⟩ := exists_of_mem_mapM hfound hown
  obtain ⟨operation?, hread, rfl⟩ := Option.map_eq_some_iff.mp hr
  obtain ⟨operation, rfl, rfl⟩ := Option.map_eq_some_iff.mp (Option.mem_toList.mp he)
  exact ⟨method, hmethod, hread⟩

/-! ## References in objects -/

/-- The schemas of some media types have only references among some texts. -/
def Content.Within (texts : List String) (content : Content) : Prop :=
  ∀ entry ∈ content, ∀ schema, entry.2.schema = some schema → schema.references ⊆ texts

/-- The schemas of a parameter have only references among some texts. -/
structure ParameterObject.Within (texts : List String) (p : ParameterObject) : Prop where
  schema : ∀ schema, p.schema = some schema → schema.references ⊆ texts
  content : p.content.Within texts

/-- The schemas of a request body have only references among some texts. -/
def RequestBodyObject.Within (texts : List String) (body : RequestBodyObject) : Prop :=
  body.content.Within texts

/-- The schemas of a response have only references among some texts. -/
def ResponseObject.Within (texts : List String) (response : ResponseObject) : Prop :=
  ∀ content, response.content = some content → content.Within texts

/-- The schemas that an operation writes in place have only references among some texts. -/
structure Operation.Within (texts : List String) (operation : Operation) : Prop where
  parameters : ∀ written ∈ operation.parameters, written.Holds (ParameterObject.Within texts)
  requestBody : ∀ written, operation.requestBody = some written →
    written.Holds (RequestBodyObject.Within texts)
  responses : ∀ entry ∈ operation.responses, entry.2.Holds (ResponseObject.Within texts)

/-- The schemas that a path item writes in place have only references among some texts. -/
structure PathItem.Within (texts : List String) (item : PathItem) : Prop where
  parameters : ∀ written ∈ item.parameters, written.Holds (ParameterObject.Within texts)
  operations : ∀ entry ∈ item.operations, entry.2.Within texts

section

variable {texts : List String}

/-- A value that is kept as it is. -/
theorem reads_some : Reads texts some fun schema => schema.references ⊆ texts := by
  intro value schema hv h
  cases h
  exact hv

theorem reads_mediaType : Reads texts MediaType.ofJson? fun media =>
    ∀ schema, media.schema = some schema → schema.references ⊆ texts := by
  intro value media hv h schema hs
  obtain ⟨members, hm, h⟩ := Option.bind_eq_some_iff.mp h
  obtain ⟨schema?, hschema, h⟩ := Option.bind_eq_some_iff.mp h
  cases h
  exact of_readOptional reads_some (reads_membersOf _ hv hm) hschema hs

theorem reads_content : Reads texts Content.ofJson? (Content.Within texts) :=
  reads_mediaType.entries

theorem reads_parameter : Reads texts ParameterObject.ofJson? (ParameterObject.Within texts) := by
  intro value parameter hv h
  obtain ⟨members, hm, h⟩ := Option.bind_eq_some_iff.mp h
  obtain ⟨name, _, h⟩ := Option.bind_eq_some_iff.mp h
  obtain ⟨location, _, h⟩ := Option.bind_eq_some_iff.mp h
  obtain ⟨required, _, h⟩ := Option.bind_eq_some_iff.mp h
  obtain ⟨schema?, hschema, h⟩ := Option.bind_eq_some_iff.mp h
  obtain ⟨content, hcontent, h⟩ := Option.bind_eq_some_iff.mp h
  cases h
  have hwithin : MembersWithin texts members := reads_membersOf _ hv hm
  exact ⟨fun schema hs => of_readOptional reads_some hwithin hschema hs,
    of_readDefault reads_content (List.forall_mem_nil _) hwithin hcontent⟩

theorem reads_requestBody :
    Reads texts RequestBodyObject.ofJson? (RequestBodyObject.Within texts) := by
  intro value body hv h
  obtain ⟨members, hm, h⟩ := Option.bind_eq_some_iff.mp h
  obtain ⟨content, hcontent, h⟩ := Option.bind_eq_some_iff.mp h
  obtain ⟨required, _, h⟩ := Option.bind_eq_some_iff.mp h
  cases h
  exact of_readDefault (P := Content.Within texts) reads_content (List.forall_mem_nil _)
    (reads_membersOf _ hv hm) hcontent

theorem reads_response : Reads texts ResponseObject.ofJson? (ResponseObject.Within texts) := by
  intro value response hv h content hc
  obtain ⟨members, hm, h⟩ := Option.bind_eq_some_iff.mp h
  obtain ⟨content?, hcontent, h⟩ := Option.bind_eq_some_iff.mp h
  cases h
  exact of_readOptional reads_content (reads_membersOf _ hv hm) hcontent hc

theorem reads_operation : Reads texts Operation.ofJson? (Operation.Within texts) := by
  intro value operation hv h
  obtain ⟨members, hm, h⟩ := Operation.exists_readFrom h
  have hwithin : MembersWithin texts members := reads_membersOf _ hv hm
  exact
    { parameters :=
        of_readDefault reads_parameter.orReference.items (List.forall_mem_nil _) hwithin h.parameters
      requestBody := fun written hw =>
        of_readOptional reads_requestBody.orReference hwithin h.requestBody hw
      responses :=
        of_readDefault reads_response.orReference.entries (List.forall_mem_nil _) hwithin
          h.responses }

theorem reads_pathItem : Reads texts PathItem.ofJson? (PathItem.Within texts) := by
  intro value item hv h
  rcases PathItem.eq_null_or_exists_readFrom h with ⟨_, rfl⟩ | ⟨members, hm, h⟩
  · exact ⟨List.forall_mem_nil _, List.forall_mem_nil _⟩
  · have hwithin : MembersWithin texts members := reads_membersOf _ hv hm
    refine ⟨of_readDefault reads_parameter.orReference.items (List.forall_mem_nil _) hwithin
      h.parameters, fun entry he => ?_⟩
    obtain ⟨method, _, hread⟩ := h.exists_method he
    exact of_readOptional reads_operation hwithin hread rfl

/-! ## References between components -/

variable {doc : Document}

theorem of_followComponent {α : Type} {kind : ComponentKind} {read : Json → Option α} {P : α → Prop}
    (hread : Reads doc.root.references read P) {fuel : Nat} {seen : List String} {pointer : String}
    {a : α} (h : doc.followComponent kind read fuel seen pointer = .ok a) : P a := by
  -- on the fuel; only the end of the chain is read as a component
  induction fuel generalizing seen pointer with
  | zero => cases h
  | succ fuel ih =>
      unfold Document.followComponent at h
      split at h
      · simp at h
      · split at h
        · simp at h
        · next target ht =>
            split at h
            · simp at h
            · next value hr =>
                cases h
                exact hread.orReference (Document.references_subset_of_resolve? ht) hr rfl
            · exact ih h

/-- A component has what reading it gives, whether it is written in place or referred to. -/
theorem of_component {α : Type} {kind : ComponentKind} {read : Json → Option α} {P : α → Prop}
    (hread : Reads doc.root.references read P) {written : OrReference α} (hw : written.Holds P)
    {a : α} (h : doc.component kind read written = .ok a) : P a := by
  cases written with
  | value own =>
      cases h
      exact hw rfl
  | reference pointer => exact of_followComponent hread h

/-- The schemas written in a path item are parts of the tree. -/
theorem within_of_pathItem {path : String} {value : Json} {item : PathItem}
    (hv : value.references ⊆ doc.root.references) (h : doc.pathItem path value = .ok item) :
    item.Within doc.root.references := by
  unfold Document.pathItem at h
  split at h
  · simp at h
  · next target ht =>
      split at h
      · simp at h
      · next found hread =>
          cases h
          exact reads_pathItem (Document.references_subset_of_deref hv ht) hread

end

/-! ## Media types -/

theorem Content.mem_of_json? {content : Content} {media : MediaType}
    (h : content.json? = some media) : ∃ name, (name, media) ∈ content := by
  unfold Content.json? at h
  split at h
  · next found hl =>
      cases h
      exact ⟨_, mem_of_lookup hl⟩
  · split at h
    · next name found hf =>
        cases h
        exact ⟨name, List.mem_of_find?_eq_some hf⟩
    · obtain ⟨⟨name, found⟩, hf, rfl⟩ := Option.map_eq_some_iff.mp h
      exact ⟨name, List.mem_of_find?_eq_some hf⟩

theorem Content.Within.jsonSchema? {texts : List String} {content : Content}
    (h : content.Within texts) {schema : Json} (hs : content.jsonSchema? = some schema) :
    schema.references ⊆ texts := by
  obtain ⟨media, hm, hs⟩ := Option.bind_eq_some_iff.mp hs
  obtain ⟨name, hm⟩ := Content.mem_of_json? hm
  exact h _ hm _ hs

theorem ParameterObject.Within.schema? {texts : List String} {p : ParameterObject}
    (h : p.Within texts) {schema : Json} (hs : Api.parameterSchema p = some schema) :
    schema.references ⊆ texts := by
  unfold Api.parameterSchema at hs
  cases hp : p.schema with
  | none =>
      rw [hp] at hs
      exact h.content.jsonSchema? hs
  | some own =>
      rw [hp] at hs
      cases hs
      exact h.schema _ hp

end OpenApi
