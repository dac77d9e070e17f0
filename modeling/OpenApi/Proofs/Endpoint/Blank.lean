import Mathlib.Data.List.Forall2
import OpenApi.Endpoint.Object
import OpenApi.Proofs.Endpoint.Reading
import OpenApi.Proofs.Schema.Blank

/-!
# Reading the objects of a blank

An object that endpoints are built from is read in a document and in its blank. Both readings fail, or
both succeed with objects that differ in nothing that a response shows: the references are the same
texts, and the schemas of media types are equal up to what responses hide. The relations between
objects are named `Alike`, and each reader has one lemma, built from those of the readers it calls.

Two things have to be kept in mind. A member of an object may itself be hidden, where the object is
the `properties` of a schema; then neither reading takes it for what it is asked for, since its flag
is no media type. And an object of that place may be read as a path item, whose operations would then
be hidden; this is excluded by asking for a path with nothing hidden right below it.
-/

namespace OpenApi

/-! ## Computations that go on alike -/

section

variable {α β γ δ : Type} {R : α → β → Prop} {S : γ → δ → Prop}

theorem rel_bind {x : Option α} {y : Option β} {f : α → Option γ} {g : β → Option δ}
    (h : Option.Rel R x y) (hf : ∀ {a b}, R a b → Option.Rel S (f a) (g b)) :
    Option.Rel S (x.bind f) (y.bind g) := by
  cases h with
  | none => exact .none
  | some h => exact hf h

theorem rel_map {x : Option α} {y : Option β} {f : α → γ} {g : β → δ} (h : Option.Rel R x y)
    (hf : ∀ {a b}, R a b → S (f a) (g b)) : Option.Rel S (x.map f) (y.map g) := by
  cases h with
  | none => exact .none
  | some h => exact .some (hf h)

theorem rel_of_eq {x y : Option α} (h : x = y) : Option.Rel Eq x y := by
  subst h
  cases x with
  | none => exact .none
  | some a => exact .some rfl

theorem eq_of_rel {x y : Option α} (h : Option.Rel Eq x y) : x = y := by
  cases h with
  | none => rfl
  | some h => rw [h]

theorem rel_mapM {f : α → Option γ} {g : β → Option δ} {list : List α} {list' : List β}
    (h : List.Forall₂ (fun a b => Option.Rel S (f a) (g b)) list list') :
    Option.Rel (List.Forall₂ S) (list.mapM f) (list'.mapM g) := by
  induction h with
  | nil => exact .some .nil
  | cons hhead _ ih =>
      rw [List.mapM_cons, List.mapM_cons]
      refine rel_bind hhead fun hfirst => rel_bind ih fun hrest => ?_
      exact .some (.cons hfirst hrest)

theorem exists_of_mapM {f : α → Option γ} {list : List α} {results : List γ}
    (h : list.mapM f = some results) {a : α} (ha : a ∈ list) : ∃ c, f a = some c := by
  obtain ⟨c, _, hc⟩ := exists_of_forall₂ (forall₂_of_mapM h).flip ha
  exact ⟨c, hc⟩

end

/-! ## Values and members of a blank -/

/-- A value at a path, and what is left of it when the hidden parts are left out. -/
structure Json.Blanked (hidden : List Path) (path : Path) (value value' : Json) : Prop where
  veiled : value.Veiled hidden path
  eq : value' = value.blank hidden path

/-- The steps that lead to a member of an object, which may be written as an array. -/
def IsField (name : String) (step : Step) : Prop :=
  step = .member name ∨ ∃ index, step = .item index

/-- Members of a value at a path, and of what is left of it. -/
def MembersBlanked (hidden : List Path) (path : Path) (members members' : Members) : Prop :=
  ∀ name, ∃ step, IsField name step ∧
    Option.Rel (Json.Blanked hidden (path ++ [step])) (members.lookup name) (members'.lookup name)

/-- Nothing right below a path is hidden. -/
def Open (hidden : List Path) (path : Path) : Prop := ∀ step, path ++ [step] ∉ hidden

/-- Reading a value at a path and reading what is left of it go on alike. -/
def ReadsAlike {α : Type} (hidden : List Path) (path : Path) (read : Json → Option α)
    (R : α → α → Prop) : Prop :=
  ∀ ⦃value value'⦄, Json.Blanked hidden path value value' → Option.Rel R (read value) (read value')

section

variable {hidden : List Path} {path : Path}

/-- Only the properties of schemas are hidden, so nothing is right below a member of another name. -/
theorem HidesProperties.open_of_field (h : HidesProperties hidden) {name : String} {step : Step}
    (hs : IsField name step) (hn : name ≠ "properties") : Open hidden (path ++ [step]) := by
  intro next hm
  obtain ⟨schema, _, _, hpath, _⟩ := h.concat hm
  obtain ⟨_, rfl⟩ := concat_inj hpath
  rcases hs with hs | ⟨index, hs⟩
  · cases hs
    exact hn rfl
  · cases hs

theorem Json.Blanked.eq_null_iff {value value' : Json} (h : Blanked hidden path value value') :
    value' = null ↔ value = null := by
  obtain ⟨hv, rfl⟩ := h
  by_cases hm : path ∈ hidden
  · obtain ⟨members, rfl, _⟩ := exists_members_of_isWriteOnly (hv.isWriteOnly hm)
    rw [blank_of_mem hm]
    constructor <;> intro hnull <;> cases hnull
  · cases value with
    | object members =>
        rw [blank_object hm]
        constructor <;> intro hnull <;> cases hnull
    | array items =>
        rw [blank_array hm]
        constructor <;> intro hnull <;> cases hnull
    | _ => rw [blank_scalar hm rfl]

theorem readsAlike_asString : ReadsAlike hidden path Json.asString? Eq := by
  rintro value value' ⟨hv, rfl⟩
  exact rel_of_eq hv.asString?_blank.symm

theorem readsAlike_asBool : ReadsAlike hidden path Json.asBool? Eq := by
  rintro value value' ⟨hv, rfl⟩
  exact rel_of_eq hv.asBool?_blank.symm

/-- A value is there in both. -/
theorem readsAlike_some : ReadsAlike hidden path some fun _ _ => True :=
  fun _ _ _ => .some trivial

theorem membersBlanked_nil : MembersBlanked hidden path [] [] :=
  fun name => ⟨.member name, .inl rfl, .none⟩

theorem MembersBlanked.cons {members members' : Members} (h : MembersBlanked hidden path members members')
    {name : String} {step : Step} (hs : IsField name step) {value value' : Json}
    (hv : Json.Blanked hidden (path ++ [step]) value value') :
    MembersBlanked hidden path ((name, value) :: members) ((name, value') :: members') := by
  intro key
  by_cases hk : key = name
  · subst hk
    refine ⟨step, hs, ?_⟩
    rw [List.lookup_cons_self, List.lookup_cons_self]
    exact .some hv
  · obtain ⟨step', hs', hrel⟩ := h key
    refine ⟨step', hs', ?_⟩
    rw [List.lookup_cons, List.lookup_cons, beq_eq_false_iff_ne.mpr hk]
    exact hrel

/-- The items of an array and of its blank are given the same names. -/
theorem rel_positional (fields : List (String × Bool)) (start : Nat) (items : List Json)
    (h : ∀ site ∈ Json.itemSites path start items, site.1 ∈ hidden → site.2.isWriteOnly = true) :
    Option.Rel (MembersBlanked hidden path) (positional? fields items)
      (positional? fields (Json.blankItems hidden path start items)) := by
  induction fields generalizing start items with
  | nil =>
      cases items with
      | nil => exact .some membersBlanked_nil
      | cons item rest => exact .none
  | cons field fields ih =>
      obtain ⟨name, omissible⟩ := field
      cases items with
      | nil =>
          rw [Json.blankItems, positional?]
          cases omissible with
          | true => exact ih start [] h
          | false => exact .none
      | cons item rest =>
          rw [Json.itemSites, List.forall_mem_append] at h
          rw [Json.blankItems, positional?, positional?]
          refine rel_map (ih (start + 1) rest h.2) fun hmembers => ?_
          exact hmembers.cons (.inr ⟨start, rfl⟩) ⟨h.1, rfl⟩

theorem readsAlike_membersOf (hp : path ∉ hidden) (fields : List (String × Bool)) :
    ReadsAlike hidden path (membersOf? fields) (MembersBlanked hidden path) := by
  rintro value value' ⟨hv, rfl⟩
  cases value with
  | object members =>
      rw [Json.blank_object hp]
      refine .some fun name => ⟨.member name, .inl rfl, ?_⟩
      rw [Json.lookup_blankMembers]
      cases hl : members.lookup name with
      | none => exact .none
      | some child => exact .some ⟨hv.of_mem (mem_of_lookup hl), rfl⟩
  | array items =>
      rw [Json.blank_array hp]
      exact rel_positional fields 0 items hv.items
  | _ =>
      rw [Json.blank_scalar hp rfl]
      exact .none

/-! ## Readers of members -/

variable {α : Type} {R : α → α → Prop} {read : Json → Option α} {members members' : Members}
  {name : String}

theorem rel_readMember (h : MembersBlanked hidden path members members')
    (hread : ∀ step, IsField name step → ReadsAlike hidden (path ++ [step]) read R) :
    Option.Rel R (readMember members name read) (readMember members' name read) := by
  obtain ⟨step, hs, hrel⟩ := h name
  exact rel_bind hrel fun hvalue => hread step hs hvalue

theorem rel_readDefault (h : MembersBlanked hidden path members members') {default : α}
    (hdefault : R default default)
    (hread : ∀ step, IsField name step → ReadsAlike hidden (path ++ [step]) read R) :
    Option.Rel R (readDefault members name default read)
      (readDefault members' name default read) := by
  obtain ⟨step, hs, hrel⟩ := h name
  rw [readDefault, readDefault]
  generalize members.lookup name = found at hrel ⊢
  generalize members'.lookup name = found' at hrel ⊢
  cases hrel with
  | none => exact .some hdefault
  | some hvalue => exact hread step hs hvalue

theorem readOptional_of_ne_null {value : Json} (hl : members.lookup name = some value)
    (hn : value ≠ .null) : readOptional members name read = (read value).map some := by
  rw [readOptional, hl]
  cases value with
  | null => exact absurd rfl hn
  | _ => rfl

theorem rel_readOptional (h : MembersBlanked hidden path members members')
    (hread : ∀ step, IsField name step → ReadsAlike hidden (path ++ [step]) read R) :
    Option.Rel (Option.Rel R) (readOptional members name read)
      (readOptional members' name read) := by
  obtain ⟨step, hs, hrel⟩ := h name
  generalize hl : members.lookup name = found at hrel
  generalize hl' : members'.lookup name = found' at hrel
  cases hrel with
  | none =>
      rw [readOptional, readOptional, hl, hl']
      exact .some .none
  | @some value value' hvalue =>
      by_cases hnull : value = .null
      · have hnull' := hvalue.eq_null_iff.mpr hnull
        subst hnull hnull'
        rw [readOptional, readOptional, hl, hl']
        exact .some .none
      · rw [readOptional_of_ne_null hl hnull,
          readOptional_of_ne_null hl' fun hnull' => hnull (hvalue.eq_null_iff.mp hnull')]
        exact rel_map (hread step hs hvalue) .some

theorem rel_mapM_blankItems (hread : ∀ index, ReadsAlike hidden (path ++ [.item index]) read R)
    (start : Nat) (items : List Json)
    (h : ∀ site ∈ Json.itemSites path start items, site.1 ∈ hidden → site.2.isWriteOnly = true) :
    List.Forall₂ (fun item item' => Option.Rel R (read item) (read item')) items
      (Json.blankItems hidden path start items) := by
  induction items generalizing start with
  | nil => exact .nil
  | cons item rest ih =>
      rw [Json.itemSites, List.forall_mem_append] at h
      exact .cons (hread start ⟨h.1, rfl⟩) (ih (start + 1) h.2)

theorem readsAlike_readItems (hp : path ∉ hidden)
    (hread : ∀ index, ReadsAlike hidden (path ++ [.item index]) read R) :
    ReadsAlike hidden path (readItems read) (List.Forall₂ R) := by
  rintro value value' ⟨hv, rfl⟩
  cases value with
  | object members =>
      rw [Json.blank_object hp]
      exact .none
  | array items =>
      rw [Json.blank_array hp]
      exact rel_mapM (rel_mapM_blankItems hread 0 items hv.items)
  | _ =>
      rw [Json.blank_scalar hp rfl]
      exact .none

/-- Entries of one name, with values that are alike. -/
def EntryAlike (R : String → α → α → Prop) (entry entry' : String × α) : Prop :=
  entry.1 = entry'.1 ∧ R entry.1 entry.2 entry'.2

theorem readsAlike_readEntries {R : String → α → α → Prop} (hp : path ∉ hidden)
    (hread : ∀ key, ReadsAlike hidden (path ++ [.member key]) read (R key)) :
    ReadsAlike hidden path (readEntries read) (List.Forall₂ (EntryAlike R)) := by
  rintro value value' ⟨hv, rfl⟩
  cases value with
  | object members =>
      rw [Json.blank_object hp]
      refine rel_mapM ?_
      have h := hv.members
      clear hv
      induction members with
      | nil => exact .nil
      | cons entry rest ih =>
          obtain ⟨key, child⟩ := entry
          rw [Json.memberSites, List.forall_mem_append] at h
          exact .cons (rel_map (hread key ⟨h.1, rfl⟩) fun hchild => ⟨rfl, hchild⟩) (ih h.2)
  | array items =>
      rw [Json.blank_array hp]
      exact .none
  | _ =>
      rw [Json.blank_scalar hp rfl]
      exact .none

/-! ## References or values -/

/-- The same reference, or values that are alike. -/
inductive OrReference.Alike (R : α → α → Prop) : OrReference α → OrReference α → Prop where
  | reference (pointer : String) : Alike R (.reference pointer) (.reference pointer)
  | value {a b : α} (h : R a b) : Alike R (.value a) (.value b)

theorem readsAlike_referencePointer (hp : path ∉ hidden) :
    ReadsAlike hidden path referencePointer? Eq := by
  intro value value' hv
  refine rel_bind (readsAlike_membersOf hp _ hv) fun hmembers => ?_
  refine rel_bind (rel_readMember hmembers fun _ _ => readsAlike_asString) fun hpointer => ?_
  refine rel_bind (rel_readDefault hmembers rfl fun _ _ => readsAlike_asString) fun _ => ?_
  refine rel_bind (rel_readDefault hmembers rfl fun _ _ => readsAlike_asString) fun _ => ?_
  exact .some hpointer

theorem readsAlike_orReference (hp : path ∉ hidden) (hread : ReadsAlike hidden path read R) :
    ReadsAlike hidden path (OrReference.ofJson? read) (OrReference.Alike R) := by
  intro value value' hv
  rw [OrReference.ofJson?, OrReference.ofJson?, ← eq_of_rel (readsAlike_referencePointer hp hv)]
  cases referencePointer? value with
  | some pointer => exact .some (.reference pointer)
  | none => exact rel_map (hread hv) .value

end

/-! ## Objects -/

/-- Media types of one name. In what is called `properties` a schema may be hidden. -/
def MediaType.Alike (name : String) (media media' : MediaType) : Prop :=
  name ≠ "properties" → Option.Rel ShownAlike media.schema media'.schema

/-- The same media types, in the same order. -/
def Content.Alike : Content → Content → Prop := List.Forall₂ (EntryAlike MediaType.Alike)

/-- Responses with the same media types. -/
def ResponseObject.Alike (response response' : ResponseObject) : Prop :=
  Option.Rel Content.Alike response.content response'.content

/-- Lists of parameters with the same references; what else they say is not compared. -/
def ParametersAlike : List (OrReference ParameterObject) → List (OrReference ParameterObject) → Prop :=
  List.Forall₂ (OrReference.Alike fun _ _ => True)

/-- Operations with the same responses, and with the same references for parameters and body. -/
structure Operation.Alike (operation operation' : Operation) : Prop where
  operationId : operation.operationId = operation'.operationId
  parameters : ParametersAlike operation.parameters operation'.parameters
  requestBody :
    Option.Rel (OrReference.Alike fun _ _ => True) operation.requestBody operation'.requestBody
  responses : List.Forall₂ (EntryAlike fun _ => OrReference.Alike ResponseObject.Alike)
    operation.responses operation'.responses

/-- Path items that declare the same operations. -/
structure PathItem.Alike (item item' : PathItem) : Prop where
  parameters : ParametersAlike item.parameters item'.parameters
  operations : List.Forall₂ (fun entry entry' => entry.1 = entry'.1 ∧ entry.2.Alike entry'.2)
    item.operations item'.operations

section

variable {hidden : List Path} {path : Path}

/-- What a media type declares for its data is a schema, at whatever place. -/
theorem readsAlike_schema (hh : HidesProperties hidden) {step : Step} (hs : IsField "schema" step)
    (hp : path ++ [.member "schema"] ∉ hidden) :
    ReadsAlike hidden (path ++ [step]) some ShownAlike := by
  rintro value value' ⟨hv, rfl⟩
  rcases hs with rfl | ⟨index, rfl⟩
  · exact .some (Schema.conceal_ofJson_blank hh _ (.declared path) value hp hv).symm
  · exact .some
      (Schema.conceal_ofJson_blank hh _ (.item path index) value (hh.notMem_item index) hv).symm

theorem readsAlike_mediaType (hh : HidesProperties hidden) {name : String}
    (hp : path ++ [.member name] ∉ hidden) :
    ReadsAlike hidden (path ++ [.member name]) MediaType.ofJson? (MediaType.Alike name) := by
  intro value value' hv
  refine rel_bind (readsAlike_membersOf hp _ hv) fun hmembers => ?_
  by_cases hn : name = "properties"
  · refine rel_bind (rel_readOptional hmembers fun _ _ => readsAlike_some) fun _ => ?_
    exact .some fun hne => absurd hn hne
  · refine rel_bind (rel_readOptional hmembers fun step hs =>
      readsAlike_schema hh hs (hh.open_of_field (.inl rfl) hn _)) fun hschema => ?_
    exact .some fun _ => hschema

/-- What is write-only has its flag among the media types, which is none. -/
theorem content_of_isWriteOnly {value : Json} (h : value.isWriteOnly = true) :
    Content.ofJson? value = none := by
  obtain ⟨members, rfl, hflag⟩ := Json.exists_members_of_isWriteOnly h
  cases hc : Content.ofJson? (.object members) with
  | none => rfl
  | some content =>
      obtain ⟨entry, hentry⟩ :=
        exists_of_mapM hc (mem_of_lookup (Json.lookup_of_flag hflag))
      cases hentry

theorem readsAlike_content (hh : HidesProperties hidden) {step : Step}
    (hs : IsField "content" step) :
    ReadsAlike hidden (path ++ [step]) Content.ofJson? Content.Alike := by
  intro value value' hv
  by_cases hm : path ++ [step] ∈ hidden
  · obtain ⟨hveiled, rfl⟩ := hv
    rw [Json.blank_of_mem hm, content_of_isWriteOnly (hveiled.isWriteOnly hm),
      content_of_isWriteOnly Json.isWriteOnly_veil]
    exact .none
  · refine readsAlike_readEntries hm (fun key => ?_) hv
    exact readsAlike_mediaType hh (hh.open_of_field hs (by decide) _)

theorem readsAlike_parameter (hh : HidesProperties hidden) (hp : path ∉ hidden) :
    ReadsAlike hidden path ParameterObject.ofJson? fun _ _ => True := by
  intro value value' hv
  refine rel_bind (readsAlike_membersOf hp _ hv) fun hmembers => ?_
  refine rel_bind (rel_readMember hmembers fun _ _ => readsAlike_asString) fun _ => ?_
  refine rel_bind (rel_readMember hmembers fun _ _ => readsAlike_asString) fun _ => ?_
  refine rel_bind (rel_readDefault hmembers rfl fun _ _ => readsAlike_asBool) fun _ => ?_
  refine rel_bind (rel_readOptional hmembers fun _ _ => readsAlike_some) fun _ => ?_
  refine rel_bind (rel_readDefault hmembers .nil fun _ hs => readsAlike_content hh hs) fun _ => ?_
  exact .some trivial

theorem readsAlike_requestBody (hh : HidesProperties hidden) (hp : path ∉ hidden) :
    ReadsAlike hidden path RequestBodyObject.ofJson? fun _ _ => True := by
  intro value value' hv
  refine rel_bind (readsAlike_membersOf hp _ hv) fun hmembers => ?_
  refine rel_bind (rel_readDefault hmembers .nil fun _ hs => readsAlike_content hh hs) fun _ => ?_
  refine rel_bind (rel_readDefault hmembers rfl fun _ _ => readsAlike_asBool) fun _ => ?_
  exact .some trivial

theorem readsAlike_response (hh : HidesProperties hidden) (hp : path ∉ hidden) :
    ReadsAlike hidden path ResponseObject.ofJson? ResponseObject.Alike := by
  intro value value' hv
  refine rel_bind (readsAlike_membersOf hp _ hv) fun hmembers => ?_
  refine rel_bind (rel_readOptional hmembers fun _ hs => readsAlike_content hh hs)
    fun hcontent => ?_
  exact .some hcontent

theorem readsAlike_parameters (hh : HidesProperties hidden) (hp : path ∉ hidden) :
    ReadsAlike hidden path readParameters ParametersAlike :=
  readsAlike_readItems hp fun index => readsAlike_orReference (hh.notMem_item index)
    (readsAlike_parameter hh (hh.notMem_item index))

theorem readsAlike_responses (hh : HidesProperties hidden) {step : Step}
    (hs : IsField "responses" step) (hp : path ++ [step] ∉ hidden) :
    ReadsAlike hidden (path ++ [step]) readResponses
      (List.Forall₂ (EntryAlike fun _ => OrReference.Alike ResponseObject.Alike)) := by
  refine readsAlike_readEntries hp fun key => ?_
  have hkey : path ++ [step] ++ [.member key] ∉ hidden := hh.open_of_field hs (by decide) _
  exact readsAlike_orReference hkey (readsAlike_response hh hkey)

theorem readsAlike_operation (hh : HidesProperties hidden) (hp : path ∉ hidden)
    (hopen : Open hidden path) : ReadsAlike hidden path Operation.ofJson? Operation.Alike := by
  intro value value' hv
  refine rel_bind (readsAlike_membersOf hp _ hv) fun hmembers => ?_
  refine rel_bind (rel_readOptional hmembers fun _ _ => readsAlike_asString) fun hid => ?_
  refine rel_bind (rel_readDefault hmembers .nil fun step _ =>
    readsAlike_parameters hh (hopen step)) fun hparameters => ?_
  refine rel_bind (rel_readOptional hmembers fun step _ => readsAlike_orReference (hopen step)
    (readsAlike_requestBody hh (hopen step))) fun hbody => ?_
  refine rel_bind (rel_readDefault hmembers .nil fun step hs =>
    readsAlike_responses hh hs (hopen step)) fun hresponses => ?_
  exact .some ⟨eq_of_rel hid, hparameters, hbody, hresponses⟩

theorem rel_readOperation (hh : HidesProperties hidden) (hopen : Open hidden path)
    {members members' : Members} (h : MembersBlanked hidden path members members')
    (method : Method) :
    Option.Rel (List.Forall₂ fun entry entry' => entry.1 = entry'.1 ∧ entry.2.Alike entry'.2)
      (readOperation members method) (readOperation members' method) := by
  have hname : method.name ≠ "properties" := by
    cases method <;> decide
  refine rel_map (rel_readOptional h fun step hs => readsAlike_operation hh (hopen step)
    (hh.open_of_field hs hname)) fun hoperation => ?_
  cases hoperation with
  | none => exact .nil
  | some hoperation => exact .cons ⟨rfl, hoperation⟩ .nil

theorem readsAlike_pathItem (hh : HidesProperties hidden) (hp : path ∉ hidden)
    (hopen : Open hidden path) : ReadsAlike hidden path PathItem.ofJson? PathItem.Alike := by
  intro value value' hv
  by_cases hnull : value = .null
  · have hnull' := hv.eq_null_iff.mpr hnull
    subst hnull hnull'
    exact .some ⟨.nil, .nil⟩
  · rw [PathItem.ofJson?.eq_def, PathItem.ofJson?.eq_def value']
    split
    · exact absurd rfl hnull
    · split
      · next hv _ => exact absurd (hv.eq_null_iff.mp rfl) hnull
      · refine rel_bind (readsAlike_membersOf hp _ hv) fun hmembers => ?_
        refine rel_bind (rel_readDefault hmembers .nil fun step _ =>
          readsAlike_parameters hh (hopen step)) fun hparameters => ?_
        refine rel_bind (rel_mapM (List.forall₂_same.mpr fun method _ =>
          rel_readOperation hh hopen hmembers method)) fun hoperations => ?_
        exact .some ⟨hparameters, List.rel_flatten hoperations⟩

end

/-! ## The schema of a response -/

/-- Media types are chosen by their names, and what is called `properties` is never chosen. -/
theorem Content.Alike.find? {content content' : Content} (h : content.Alike content')
    {p : String → Bool} (hp : p "properties" = false) :
    Option.Rel (fun entry entry' => Option.Rel ShownAlike entry.2.schema entry'.2.schema)
      (content.find? fun entry => p entry.1) (content'.find? fun entry => p entry.1) := by
  induction h with
  | nil => exact .none
  | @cons entry entry' _ _ hentry _ ih =>
      rw [List.find?_cons, List.find?_cons, ← hentry.1]
      cases hname : p entry.1 with
      | false => exact ih
      | true =>
          refine .some (hentry.2 ?_)
          intro heq
          rw [heq, hp] at hname
          cases hname

theorem Content.lookup_eq_find? (content : Content) (name : String) :
    content.lookup name = (content.find? fun entry => entry.1 == name).map Prod.snd := by
  induction content with
  | nil => rfl
  | cons entry rest ih =>
      obtain ⟨key, media⟩ := entry
      rw [List.lookup_cons, List.find?_cons, BEq.comm]
      cases hk : key == name with
      | true => rfl
      | false => exact ih

/-- Alike responses declare schemas that are equal up to what responses hide. -/
theorem Content.Alike.jsonSchema? {content content' : Content} (h : content.Alike content') :
    Option.Rel ShownAlike content.jsonSchema? content'.jsonSchema? := by
  have hexact := h.find? (p := fun name => name == "application/json") (by decide)
  have hessence := h.find? (p := fun name => essence name = "application/json") (by decide)
  have hfamily := h.find? (p := fun name => "+json".toList.isSuffixOf (essence name).toList)
    (by decide)
  rw [Content.jsonSchema?, Content.jsonSchema?, Content.json?, Content.json?,
    Content.lookup_eq_find?, Content.lookup_eq_find?]
  generalize (content.find? fun entry => entry.1 == "application/json") = found at hexact ⊢
  generalize (content'.find? fun entry => entry.1 == "application/json") = found' at hexact ⊢
  cases hexact with
  | some hmedia => exact hmedia
  | none =>
      dsimp only [Option.map_none]
      generalize (content.find? fun entry => essence entry.1 = "application/json") = found
        at hessence ⊢
      generalize (content'.find? fun entry => essence entry.1 = "application/json") = found'
        at hessence ⊢
      cases hessence with
      | some hmedia => exact hmedia
      | none => exact rel_bind (rel_map hfamily id) id

end OpenApi
