import Mathlib.Logic.Relation
import OpenApi.Proofs.Endpoint.Faults

/-!
# Endpoints are the declared operations, in order

The operations of a document are declared by the path items that its paths lead to. They are listed
here from the tree alone, `Document.declarations`, with the components of each as they are written,
and so is every fault that resolving them can meet, `Document.faults`. Resolving the document then
succeeds exactly if there is no fault; the endpoints stand for the declarations one by one, and
otherwise the error is the first of the faults: `endpoints_exact`.

Both halves go through the same loops, so they are proved together. `Concludes` says of a computation
that it ends with the first of some faults or else with a result that has a property; it passes from
the steps of a loop to the loop.
-/

namespace OpenApi

/-! ## Computations that end with their first fault -/

/-- A computation ends with the first of some faults; if there is none, it has a result with a
property. -/
def Concludes {α : Type} (faults : List Error) (P : α → Prop) : Except Error α → Prop
  | .ok a => faults = [] ∧ P a
  | .error error => faults.head? = some error

section

variable {α β γ δ : Type} {P : α → Prop} {Q : β → Prop} {F G : List Error}

theorem concludes_ok {a : α} (h : P a) : Concludes [] P (.ok a) := ⟨rfl, h⟩

theorem concludes_error (error : Error) : Concludes [error] P (.error error) := rfl

theorem Concludes.bind {x : Except Error α} {f : α → Except Error β} (hx : Concludes F P x)
    (hf : ∀ a, P a → Concludes G Q (f a)) : Concludes (F ++ G) Q (x >>= f) := by
  cases x with
  | error error =>
      cases F with
      | nil => cases hx
      | cons first rest => exact hx
  | ok a =>
      obtain ⟨rfl, ha⟩ := hx
      exact hf a ha

theorem Concludes.eq_error_iff {x : Except Error α} (h : Concludes F P x) {error : Error} :
    x = .error error ↔ F.head? = some error := by
  cases x with
  | error own =>
      have hown : F.head? = some own := h
      rw [hown, Option.some_inj, Except.error.injEq]
  | ok a =>
      rw [h.1]
      constructor <;> intro h <;> cases h

theorem Concludes.map {x : Except Error α} {f : α → β} (hx : Concludes F P x)
    (hf : ∀ a, P a → Q (f a)) : Concludes F Q (x >>= fun a => pure (f a)) := by
  have h := hx.bind (G := []) fun a ha => concludes_ok (hf a ha)
  rwa [List.append_nil] at h

/-- A loop over values stops at the first fault of one of them, in their order. -/
theorem concludes_mapM {S : α → β → Prop} {R : α → γ → Prop} {F : α → List Error}
    {f : β → Except Error γ} {written : List α} {list : List β} (h : List.Forall₂ S written list)
    (hf : ∀ a b, S a b → Concludes (F a) (R a) (f b)) :
    Concludes (written.flatMap F) (List.Forall₂ R written) (list.mapM f) := by
  induction h with
  | nil => exact concludes_ok .nil
  | @cons a b _ _ hab _ ih =>
      rw [List.mapM_cons, List.flatMap_cons]
      refine (hf a b hab).bind fun c hc => ?_
      exact ih.map fun results hresults => .cons hc hresults

/-- A step that may be left out. -/
theorem concludes_option {S : α → β → Prop} {R : α → γ → Prop} {F : α → List Error}
    {f : β → Except Error γ} {written : Option α} {value : Option β} (h : Option.Rel S written value)
    (hf : ∀ a b, S a b → Concludes (F a) (R a) (f b)) :
    Concludes (written.toList.flatMap F) (Option.Rel R written) (value.mapM f) := by
  cases h with
  | none => exact concludes_ok .none
  | @some a b hab =>
      rw [Option.toList_some, List.flatMap_singleton]
      exact (hf a b hab).map fun c hc => .some hc

end

/-! ## Members that may be null -/

/-- The value of a member, unless it is null. -/
def Members.declared? (members : Members) (name : String) : Option Json :=
  match members.lookup name with
  | some .null => none
  | found => found

theorem rel_declared {α : Type} {members : Members} {name : String} {read : Json → Option α}
    {found : Option α} (h : readOptional members name read = some found) :
    Option.Rel (fun value a => read value = some a) (members.declared? name) found := by
  rw [readOptional.eq_def] at h
  rw [Members.declared?]
  split at h
  · next hl =>
      cases h
      rw [hl]
      exact .none
  · next hl =>
      cases h
      rw [hl]
      exact .none
  · next value hnull hl =>
      obtain ⟨a, hread, rfl⟩ := Option.map_eq_some_iff.mp h
      rw [hl]
      cases value with
      | null => exact absurd rfl hnull
      | _ => exact .some hread

/-! ## Declared operations -/

/-- An operation that is declared for a path: by which path item, for which method, and the operation
as it is written. -/
structure Declaration where
  path : String
  item : Json
  method : Method
  operation : Json

/-- The operations that a path item declares, in the order of the methods. -/
def declaredOperations (item : Json) : List (Method × Json) :=
  Method.all.filterMap fun method =>
    (((membersOf? PathItem.fields item).getD []).declared? method.name).map (method, ·)

namespace Declaration

/-- The members of the operation. -/
def members (d : Declaration) : Members := (membersOf? Operation.fields d.operation).getD []

/-- The parameters as they are written: those of the path item, then those of the operation. -/
def parameters (d : Declaration) : List Json :=
  ((membersOf? PathItem.fields d.item).getD []).itemsOf "parameters" ++ d.members.itemsOf "parameters"

end Declaration

namespace Document

variable (doc : Document)

/-- The paths of a document. Members of `paths` that are extensions are none. -/
def declaredPaths : Members := (doc.paths?.getD []).filter fun (path, _) => !Api.isExtension path

/-- The operations that are declared for a path with some value. -/
def declarationsAt (path : String) (value : Json) : List Declaration :=
  match doc.deref value with
  | none => []
  | some item => (declaredOperations item).map fun (method, operation) =>
      { path, item, method, operation }

/-- The operations that are declared, path by path. -/
def declarations : List Declaration :=
  doc.declaredPaths.flatMap fun (path, value) => doc.declarationsAt path value

/-- References lead from a value to another one that is no reference. -/
def Leads (value target : Json) : Prop :=
  Relation.ReflTransGen
      (fun value next => ∃ text, value.reference? = some text ∧ doc.resolve? text = some next)
      value target ∧
    target.reference? = none

/-- What an entry of a component stands for: what it is read as, or what the entry that it refers to
stands for. -/
inductive Denotes {α : Type} (read : Json → Option α) : Json → α → Prop where
  | value {entry a} (h : OrReference.ofJson? read entry = some (.value a)) : Denotes read entry a
  | reference {entry pointer target a}
      (h : OrReference.ofJson? read entry = some (.reference pointer))
      (hr : doc.resolve? pointer = some target) (ht : Denotes read target a) : Denotes read entry a

/-! ## Faults -/

/-- The fault of an entry that is read as a component: that of following it. -/
def entryFaults {α : Type} (kind : ComponentKind) (read : Json → Option α) (entry : Json) :
    List Error :=
  match (OrReference.ofJson? read entry).map (doc.component kind read) with
  | some (.error error) => [error]
  | _ => []

/-- The faults of an operation: those of its parameters, of its request body and of its responses. -/
def declarationFaults (d : Declaration) : List Error :=
  d.parameters.flatMap (doc.entryFaults .parameter ParameterObject.ofJson?) ++
    ((d.members.declared? "requestBody").toList.flatMap
        (doc.entryFaults .requestBody RequestBodyObject.ofJson?) ++
      (d.members.entriesOf "responses").flatMap fun (_, entry) =>
        doc.entryFaults .response ResponseObject.ofJson? entry)

/-- The faults of a path: that of its path item, or those of the operations that it declares. -/
def pathFaults (path : String) (value : Json) : List Error :=
  match doc.pathItem path value with
  | .error error => [error]
  | .ok _ => (doc.declarationsAt path value).flatMap doc.declarationFaults

/-- The faults of a document, path by path. -/
def faults : List Error :=
  doc.declaredPaths.flatMap fun (path, value) => doc.pathFaults path value

end Document

/-- An endpoint stands for a declared operation. -/
structure Api.Resolves (api : Api) (d : Declaration) (endpoint : Endpoint) : Prop where
  path : endpoint.path = api.settings.transformPath d.path
  method : endpoint.method = d.method
  operationName : endpoint.operationName = d.method.operationName (api.settings.transformPath d.path)
    ((d.members.declared? "operationId").bind Json.asString?) api.settings.operationCase
  /-- The parameters of supported location, in order. -/
  parameters : ∃ objects,
    List.Forall₂ (api.document.Denotes ParameterObject.ofJson?) d.parameters objects ∧
      endpoint.parameters
        = objects.filterMap (api.parameter? api.settings.requiredParameters)
  /-- Those that are carried in the path, in their order. -/
  pathParameters : endpoint.pathParameters = endpoint.parameters.filter (·.location = .path)
  /-- Those that are carried in the query, in their order. -/
  queryParameters : endpoint.queryParameters = endpoint.parameters.filter (·.location = .query)
  requestBody : Option.Rel (fun entry body => ∃ object,
      api.document.Denotes RequestBodyObject.ofJson? entry object ∧
        body.required = object.required ∧ body.type
          = api.typeOf { qualified := true, view := .request } object.content.jsonSchema?)
    (d.members.declared? "requestBody") endpoint.requestBody
  /-- One response for each key, in order. -/
  responses : List.Forall₂ (fun entry response => response.status = .ofKey entry.1 ∧ ∃ object,
      api.document.Denotes ResponseObject.ofJson? entry.2 object ∧
        response.type = api.responseType object)
    (d.members.entriesOf "responses") endpoint.responses

/-! ## Reading path items -/

/-- An operation is read from the members that declare it. -/
structure Operation.Written (members : Members) (operation : Operation) : Prop where
  operationId : operation.operationId = (members.declared? "operationId").bind Json.asString?
  parameters : List.Forall₂
    (fun entry own => OrReference.ofJson? ParameterObject.ofJson? entry = some own)
    (members.itemsOf "parameters") operation.parameters
  requestBody : Option.Rel
    (fun entry own => OrReference.ofJson? RequestBodyObject.ofJson? entry = some own)
    (members.declared? "requestBody") operation.requestBody
  responses : List.Forall₂
    (fun entry own => own.1 = entry.1 ∧ OrReference.ofJson? ResponseObject.ofJson? entry.2 = some own.2)
    (members.entriesOf "responses") operation.responses

theorem written_of_ofJson? {value : Json} {operation : Operation}
    (h : Operation.ofJson? value = some operation) :
    operation.Written ((membersOf? Operation.fields value).getD []) := by
  obtain ⟨members, hm, h⟩ := Operation.exists_readFrom h
  rw [hm]
  refine ⟨?_, forall₂_itemsOf h.parameters, rel_declared h.requestBody,
    forall₂_entriesOf h.responses⟩
  have hrel := rel_declared h.operationId
  dsimp only [Option.getD_some]
  generalize members.declared? "operationId" = own at hrel ⊢
  generalize operation.operationId = operationId at hrel ⊢
  cases hrel with
  | none => rfl
  | some hrel => exact hrel.symm

theorem forall₂_readOperations {members : Members} {methods : List Method}
    {found : List (List (Method × Operation))}
    (h : methods.mapM (readOperation members) = some found) :
    List.Forall₂ (fun own read => read.1 = own.1 ∧ Operation.ofJson? own.2 = some read.2)
      (methods.filterMap fun method => (members.declared? method.name).map (method, ·))
      found.flatten := by
  have hread := forall₂_of_mapM h
  clear h
  induction hread with
  | nil => exact .nil
  | @cons method _ _ _ hhead _ ih =>
      obtain ⟨operation?, hoperation, rfl⟩ := Option.map_eq_some_iff.mp hhead
      have hrel := rel_declared hoperation
      rw [List.filterMap_cons, List.flatten_cons]
      generalize members.declared? method.name = own at hrel ⊢
      cases hrel with
      | none => exact ih
      | some hrel => exact .cons ⟨rfl, hrel⟩ ih

/-- What is read of a path item: the shared parameters and the declared operations, in order. -/
theorem forall₂_of_pathItem {item : Json} {found : PathItem}
    (h : PathItem.ofJson? item = some found) :
    List.Forall₂ (fun entry own => OrReference.ofJson? ParameterObject.ofJson? entry = some own)
        (((membersOf? PathItem.fields item).getD []).itemsOf "parameters") found.parameters ∧
      List.Forall₂ (fun own read => read.1 = own.1 ∧ Operation.ofJson? own.2 = some read.2)
        (declaredOperations item) found.operations := by
  rcases PathItem.eq_null_or_exists_readFrom h with ⟨rfl, rfl⟩ | ⟨members, hm, h⟩
  · exact ⟨.nil, .nil⟩
  · obtain ⟨operations, hoperations, heq⟩ := h.operations
    rw [declaredOperations, hm, heq]
    exact ⟨forall₂_itemsOf h.parameters, forall₂_readOperations hoperations⟩

/-! ## Resolving one component -/

namespace Document

variable {doc : Document} {α : Type} {kind : ComponentKind} {read : Json → Option α}

/-- Following references ends at a value of the chain that is read as a component. -/
theorem denotes_of_followComponent {fuel : Nat} {seen : List String} {pointer : String} {a : α}
    (h : doc.followComponent kind read fuel seen pointer = .ok a) :
    ∃ target, doc.resolve? pointer = some target ∧ doc.Denotes read target a := by
  induction fuel generalizing seen pointer with
  | zero => cases h
  | succ fuel ih =>
      unfold followComponent at h
      split at h
      · cases h
      · split at h
        · cases h
        · next target ht =>
            refine ⟨target, ht, ?_⟩
            split at h
            · cases h
            · next value hread =>
                cases h
                exact .value hread
            · next next hread =>
                obtain ⟨found, hfound, hdenotes⟩ := ih h
                exact .reference hread hfound hdenotes

theorem denotes_of_component {entry : Json} {written : OrReference α}
    (hread : OrReference.ofJson? read entry = some written) {a : α}
    (h : doc.component kind read written = .ok a) : doc.Denotes read entry a := by
  cases written with
  | value own =>
      cases h
      exact .value hread
  | reference pointer =>
      obtain ⟨target, ht, hdenotes⟩ := denotes_of_followComponent h
      exact .reference hread ht hdenotes

/-- Following an entry has the fault of the entry, or gives what it stands for. -/
theorem concludes_component {entry : Json} {written : OrReference α}
    (hread : OrReference.ofJson? read entry = some written) :
    Concludes (doc.entryFaults kind read entry) (doc.Denotes read entry)
      (doc.component kind read written) := by
  rw [entryFaults, hread, Option.map_some]
  cases h : doc.component kind read written with
  | error error => exact concludes_error error
  | ok a => exact concludes_ok (denotes_of_component hread h)

end Document

/-! ## Following a path to its path item -/

namespace Document

variable {doc : Document}

theorem Chain.leads {value target : Json} {texts : List String} (h : doc.Chain value texts target)
    (hr : target.reference? = none) : doc.Leads value target := by
  refine ⟨?_, hr⟩
  induction h with
  | nil => exact .refl
  | cons hr' hn _ ih => exact (ih hr).head ⟨_, hr', hn⟩

/-- Without a fault every path leads to a path item. -/
theorem exists_leads_of_faults_eq_nil (h : doc.faults = []) {entry : String × Json}
    (hm : entry ∈ doc.declaredPaths) :
    ∃ item, doc.deref entry.2 = some item ∧ doc.Leads entry.2 item := by
  have hpath : doc.pathFaults entry.1 entry.2 = [] := List.flatMap_eq_nil_iff.mp h entry hm
  rw [pathFaults, pathItem] at hpath
  cases hd : doc.deref entry.2 with
  | none =>
      rw [hd] at hpath
      cases hpath
  | some item =>
      obtain ⟨⟨texts, hc⟩, hr⟩ := deref_eq_some_iff.mp hd
      exact ⟨item, rfl, hc.leads hr⟩

end Document

/-! ## Resolving one operation -/

namespace Api

variable {api : Api}

theorem concludes_parameters (allRequired : Bool) {entries : List Json}
    {written : List (OrReference ParameterObject)}
    (h : List.Forall₂ (fun entry own => OrReference.ofJson? ParameterObject.ofJson? entry = some own)
      entries written) :
    Concludes (entries.flatMap (api.document.entryFaults .parameter ParameterObject.ofJson?))
      (fun parameters => ∃ objects,
        List.Forall₂ (api.document.Denotes ParameterObject.ofJson?) entries objects ∧
          parameters = objects.filterMap (api.parameter? allRequired))
      (api.parameters allRequired written) :=
  (concludes_mapM h fun _ _ => Document.concludes_component).map fun objects hobjects =>
    ⟨objects, hobjects, rfl⟩

theorem concludes_requestBody {entry : Json} {written : OrReference RequestBodyObject}
    (h : OrReference.ofJson? RequestBodyObject.ofJson? entry = some written) :
    Concludes (api.document.entryFaults .requestBody RequestBodyObject.ofJson? entry)
      (fun body => ∃ object, api.document.Denotes RequestBodyObject.ofJson? entry object ∧
        body.required = object.required ∧ body.type
          = api.typeOf { qualified := true, view := .request } object.content.jsonSchema?)
      (api.requestBody written) :=
  (Document.concludes_component h).map fun object hobject => ⟨object, hobject, rfl, rfl⟩

theorem concludes_response {entry : String × Json} {key : String}
    {written : OrReference ResponseObject} (hkey : key = entry.1)
    (h : OrReference.ofJson? ResponseObject.ofJson? entry.2 = some written) :
    Concludes (api.document.entryFaults .response ResponseObject.ofJson? entry.2)
      (fun response => response.status = .ofKey entry.1 ∧ ∃ object,
        api.document.Denotes ResponseObject.ofJson? entry.2 object ∧
          response.type = api.responseType object)
      (api.response key written) :=
  (Document.concludes_component h).map fun object hobject =>
    ⟨congrArg Status.ofKey hkey, object, hobject, rfl⟩

/-- Resolving an operation has the faults of its declaration, or gives an endpoint that stands for
it. -/
theorem concludes_endpoint {d : Declaration} {shared : List (OrReference ParameterObject)}
    {operation : Operation}
    (hshared : List.Forall₂
      (fun entry own => OrReference.ofJson? ParameterObject.ofJson? entry = some own)
      (((membersOf? PathItem.fields d.item).getD []).itemsOf "parameters") shared)
    (hread : Operation.ofJson? d.operation = some operation) :
    Concludes (api.document.declarationFaults d) (api.Resolves d)
      (api.endpoint d.path shared d.method operation) := by
  have hwritten : operation.Written d.members := written_of_ofJson? hread
  refine Concludes.bind (concludes_parameters _ (List.rel_append hshared hwritten.parameters)) ?_
  intro parameters hparameters
  refine Concludes.bind (concludes_option hwritten.requestBody fun _ _ => concludes_requestBody) ?_
  intro requestBody hbody
  refine Concludes.map (concludes_mapM hwritten.responses fun _ _ h => concludes_response h.1 h.2) ?_
  intro responses hresponses
  exact
    { path := rfl
      method := rfl
      operationName := by rw [hwritten.operationId]
      parameters := hparameters
      pathParameters := rfl
      queryParameters := rfl
      requestBody := hbody
      responses := hresponses }

/-! ## Resolving all operations -/

/-- Resolving a path has its faults, or gives the endpoints of the operations declared for it. -/
theorem concludes_pathEndpoints (path : String) (value : Json) :
    Concludes (api.document.pathFaults path value)
      (List.Forall₂ api.Resolves (api.document.declarationsAt path value))
      (api.pathEndpoints path value) := by
  rw [pathEndpoints, Document.pathFaults]
  cases hitem : api.document.pathItem path value with
  | error error => exact concludes_error error
  | ok item =>
      rw [Document.pathItem] at hitem
      rw [Document.declarationsAt]
      cases htarget : api.document.deref value with
      | none =>
          rw [htarget] at hitem
          cases hitem
      | some target =>
          rw [htarget] at hitem
          dsimp only at hitem ⊢
          cases hread : PathItem.ofJson? target with
          | none =>
              rw [hread] at hitem
              cases hitem
          | some found =>
              rw [hread] at hitem
              cases hitem
              obtain ⟨hshared, hoperations⟩ := forall₂_of_pathItem hread
              -- on the declarations, each of which keeps the path and the path item
              refine concludes_mapM (S := fun (d : Declaration) read => d.path = path ∧
                d.item = target ∧ read.1 = d.method ∧ Operation.ofJson? d.operation = some read.2)
                (List.forall₂_map_left_iff.mpr (hoperations.imp fun _ _ h => ⟨rfl, rfl, h⟩)) ?_
              rintro d ⟨method, operation⟩ ⟨rfl, rfl, rfl, hoperation⟩
              exact concludes_endpoint hshared hoperation

theorem concludes_endpoints :
    Concludes api.document.faults (List.Forall₂ api.Resolves api.document.declarations)
      api.endpoints := by
  have hpaths : List.Forall₂ Eq api.document.declaredPaths api.document.declaredPaths :=
    List.forall₂_refl _
  have hloop : Concludes api.document.faults
      (List.Forall₂
        (fun entry => List.Forall₂ api.Resolves (api.document.declarationsAt entry.1 entry.2))
        api.document.declaredPaths)
      (api.document.declaredPaths.mapM fun (path, value) => api.pathEndpoints path value) := by
    refine concludes_mapM hpaths ?_
    rintro _ ⟨path, value⟩ rfl
    exact concludes_pathEndpoints path value
  refine hloop.map fun found hfound => ?_
  rw [Document.declarations, List.flatMap_def]
  exact List.rel_flatten (List.forall₂_map_left_iff.mpr hfound)

/-- Resolving all operations fails with the first fault of the document, if it has one. Otherwise every
path leads to a path item, and the endpoints stand for the declared operations one by one: for each
path in document order, those of its path item in the order of the methods. The parameters of an
endpoint that are carried in the path or the query are listed again on their own. -/
theorem endpoints_exact (api : Api) :
    (∀ endpoints, api.endpoints = .ok endpoints →
      (∀ entry ∈ api.document.declaredPaths,
        ∃ item, api.document.deref entry.2 = some item ∧ api.document.Leads entry.2 item) ∧
      endpoints.map (fun endpoint => (endpoint.path, endpoint.method))
        = api.document.declarations.map
            (fun d => (api.settings.transformPath d.path, d.method)) ∧
      List.Forall₂ api.Resolves api.document.declarations endpoints ∧
      ∀ endpoint ∈ endpoints,
        endpoint.toJson.member? "pathParameters" = some (.array
          ((endpoint.parameters.filter (·.location = .path)).map Parameter.toJson)) ∧
        endpoint.toJson.member? "queryParameters" = some (.array
          ((endpoint.parameters.filter (·.location = .query)).map Parameter.toJson))) ∧
    ∀ error, api.endpoints = .error error ↔ api.document.faults.head? = some error := by
  have hconcludes := @concludes_endpoints api
  refine ⟨fun endpoints hok => ?_, fun error => hconcludes.eq_error_iff⟩
  rw [hok] at hconcludes
  obtain ⟨hfaults, hresolves⟩ := hconcludes
  refine ⟨fun entry hm => Document.exists_leads_of_faults_eq_nil hfaults hm, ?_, hresolves,
    fun endpoint hm => ?_⟩
  · rw [← List.forall₂_eq_eq_eq, List.forall₂_map_left_iff, List.forall₂_map_right_iff]
    exact hresolves.flip.imp fun endpoint d h => Prod.ext h.path h.method
  · -- the endpoint stands for some declaration
    obtain ⟨d, _, h⟩ := exists_of_forall₂ hresolves hm
    rw [← h.pathParameters, ← h.queryParameters]
    exact ⟨rfl, rfl⟩

/-- A document with some paths; the operations of pets are declared elsewhere. -/
def shopWith (paths : Members) : Json :=
  .object [("paths", .object paths),
    ("x-items", .object [("pet", .object
      [("parameters", .array [.object [("name", .string "id"), ("in", .string "path")]]),
        ("delete", .object []),
        ("get", .object
          [("parameters", .array
            [.object [("name", .string "filter"), ("in", .string "querystring")],
              .object [("$ref", .string "#/components/parameters/limit")]]),
            ("responses", .object [("404", .object []), ("200", .object [])])])])]),
    ("components", .object
      [("parameters", .object [("limit", .object [("name", .string "limit"),
          ("in", .string "query")])]),
        ("responses", .object [("bad", .object [("content", .bool true)])])])]

/-- A path by reference, one without operations, an extension, and one with a method switched off. -/
def shopPaths : Members :=
  [("/pets/{id}", .object [("$ref", .string "#/x-items/pet")]), ("/empty", .null),
    ("x-notes", .object [("get", .object [])]),
    ("/orders", .object [("post", .object []), ("put", .null), ("head", .object [])])]

/-- The same paths, then one with a response that cannot be read and one that is no path item. -/
def spoiltPaths : Members :=
  shopPaths ++
    [("/sales", .object [("get", .object [("responses", .object
        [("default", .object [("$ref", .string "#/components/responses/bad")])])])]),
      ("/stock", .bool true)]

/-- The shop has four endpoints in the order of paths and methods, and those of pets take the shared
parameter. With the spoilt paths it has none, on account of the first of two faults. -/
theorem endpoints_shop :
    (∃ endpoints, Api.endpoints ⟨⟨"mem:/shop", shopWith shopPaths⟩, {}⟩ = .ok endpoints ∧
      endpoints.map (fun endpoint => (endpoint.path, endpoint.method))
        = [("/pets/{id}", .get), ("/pets/{id}", .delete), ("/orders", .post), ("/orders", .head)] ∧
      endpoints.map (fun endpoint => endpoint.parameters.map Parameter.name)
        = [["id", "limit"], ["id"], [], []]) ∧
    (Document.faults ⟨"mem:/shop", shopWith spoiltPaths⟩).length = 2 ∧
    Api.endpoints ⟨⟨"mem:/shop", shopWith spoiltPaths⟩, {}⟩
      = .error (.parse (.componentShape .response "#/components/responses/bad")) := by
  refine ⟨⟨_, rfl, ?_, rfl⟩, by decide, ?_⟩
  · exact ((endpoints_exact ⟨⟨"mem:/shop", shopWith shopPaths⟩, {}⟩).1 _ rfl).2.1
  · exact ((endpoints_exact ⟨⟨"mem:/shop", shopWith spoiltPaths⟩, {}⟩).2 _).mpr (by decide)

end Api

end OpenApi
