import OpenApi.Proofs.Schema.Reachability
import OpenApi.Schema.Lowering

/-!
# What a lowered type is made of

`collect` gathers something from a type expression or from a schema, in order of appearance: at the
named leaves and at the records of the one, at the references and at the objects of the other. A
schema is gathered from in a view, so what stands below a property that the view hides does not
count. `collect_lower` says that lowering preserves this: the leaves are the names of the references,
and each record lists the names that the view shows of its object.

A view that hides nothing of a schema, neither in the schema itself nor in what it refers to, sees it
as a whole: `lower_eq_of_not_holds`.
-/

namespace OpenApi

/-! ## Gathering from types -/

namespace TypeExpr

section

variable {α : Type} (named : String → List α) (record : List String → List α)

mutual

/-- What is gathered from the named leaves of a type, and from the field names of its records. -/
def collect : TypeExpr → List α
  | .named name => named name
  | .array item => collect item
  | .record fields => record (fields.map Field.name) ++ collectFields fields
  | .union members => collectAll members
  | .intersection members => collectAll members
  | _ => []

/-- What is gathered from some fields. -/
def collectFields : List (Field TypeExpr) → List α
  | [] => []
  | ⟨_, _, type⟩ :: rest => collect type ++ collectFields rest

/-- What is gathered from some types. -/
def collectAll : List TypeExpr → List α
  | [] => []
  | type :: rest => collect type ++ collectAll rest

end

@[simp]
theorem collectAll_append (types types' : List TypeExpr) :
    collectAll named record (types ++ types')
      = collectAll named record types ++ collectAll named record types' := by
  induction types with
  | nil => rfl
  | cons type rest ih => rw [List.cons_append, collectAll, collectAll, ih, List.append_assoc]

@[simp]
theorem collectFields_append (fields fields' : List (Field TypeExpr)) :
    collectFields named record (fields ++ fields')
      = collectFields named record fields ++ collectFields named record fields' := by
  induction fields with
  | nil => rfl
  | cons field rest ih =>
      rw [List.cons_append, collectFields, collectFields, ih, List.append_assoc]

theorem collectAll_singleton (type : TypeExpr) :
    collectAll named record [type] = type.collect named record := by
  rw [collectAll, collectAll, List.append_nil]

/-- Splicing members changes nothing that is gathered. -/
theorem collectAll_flatMap {splice : TypeExpr → List TypeExpr}
    (h : ∀ type, collectAll named record (splice type) = type.collect named record)
    (types : List TypeExpr) :
    collectAll named record (types.flatMap splice) = collectAll named record types := by
  induction types with
  | nil => rfl
  | cons type rest ih => rw [List.flatMap_cons, collectAll_append, h, ih, collectAll]

theorem collect_unionOf (types : List TypeExpr) :
    (unionOf types).collect named record = collectAll named record types := by
  have hsplice : ∀ type : TypeExpr,
      collectAll named record type.unionMembers = type.collect named record := by
    intro type
    cases type with
    | union members => rw [unionMembers, collect]
    | _ => exact collectAll_singleton _ _ _
  rw [← collectAll_flatMap named record hsplice types, unionOf]
  split
  · next heq => rw [heq, collectAll_singleton]
  · rw [collect]

theorem collect_intersectionOf (types : List TypeExpr) :
    (intersectionOf types).collect named record = collectAll named record types := by
  have hsplice : ∀ type : TypeExpr,
      collectAll named record type.intersectionMembers = type.collect named record := by
    intro type
    cases type with
    | intersection members => rw [intersectionMembers, collect]
    | _ => exact collectAll_singleton _ _ _
  rw [← collectAll_flatMap named record hsplice types, intersectionOf]
  split
  · next heq => rw [heq, collectAll_singleton]
  · rw [collect]

theorem collect_ofValue (base : Option Primitive) (value : Json) :
    (ofValue base value).collect named record = [] := by
  rw [ofValue.eq_def]
  split
  · rfl
  · split <;> rfl
  · split <;> rfl

end

/-- The names at the leaves of a type. -/
def names (type : TypeExpr) : List String := type.collect (fun name => [name]) fun _ => []

/-- The records of a type, each as the list of its field names. -/
def records (type : TypeExpr) : List (List String) :=
  type.collect (fun _ => []) fun fields => [fields]

end TypeExpr

/-! ## Gathering from schemas -/

namespace Schema

/-- The names of those properties that a view shows. -/
def shownNames (view : View) (properties : List (Property Schema)) : List String :=
  (properties.filter fun property => !view.hides property.schema.flags).map Property.name

section

variable {α : Type} (view : View) (reference : String → List α) (object : List String → List α)

mutual

/-- What is gathered from the references that a view shows of a schema, and from the names that it
shows of the schema's objects; an object without properties is open and does not count. -/
def collect : Schema → List α
  | .reference _ pointer => reference pointer
  | .composite _ _ members => collectAll members
  | .object _ [] => []
  | .object _ (property :: rest) =>
    object (shownNames view (property :: rest)) ++ collectProperties (property :: rest)
  | .array _ (some items) => collect items
  | _ => []

/-- What is gathered from some schemas. -/
def collectAll : List Schema → List α
  | [] => []
  | schema :: rest => collect schema ++ collectAll rest

/-- What is gathered from those properties that the view shows. -/
def collectProperties : List (Property Schema) → List α
  | [] => []
  | ⟨_, _, schema⟩ :: rest =>
    (if view.hides schema.flags then [] else collect schema) ++ collectProperties rest

end

end

/-- The objects that a view shows of a schema, each as the list of the property names that it shows.
-/
def shownObjects (view : View) (schema : Schema) : List (List String) :=
  schema.collect view (fun _ => []) fun names => [names]

mutual

/-- The references that a view shows are references of the schema. -/
theorem mem_of_mem_collect {α : Type} {view : View} {reference : String → List α} {a : α}
    (schema : Schema) (h : a ∈ schema.collect view reference fun _ => []) :
    ∃ pointer ∈ schema.pointers, a ∈ reference pointer := by
  match schema with
  | .reference _ pointer =>
    unfold pointers
    exact ⟨pointer, List.mem_cons_self, h⟩
  | .composite _ _ members =>
    unfold pointers
    exact mem_of_mem_collectAll members h
  | .object _ [] => cases h
  | .object _ (property :: rest) =>
    unfold pointers
    rw [collect, List.nil_append] at h
    exact mem_of_mem_collectProperties (property :: rest) h
  | .array _ (some items) =>
    unfold pointers
    exact mem_of_mem_collect items h
  | .array _ none => cases h
  | .enumeration _ _ _ => cases h
  | .primitive _ _ => cases h
  | .unknown _ => cases h

theorem mem_of_mem_collectAll {α : Type} {view : View} {reference : String → List α} {a : α}
    (schemas : List Schema) (h : a ∈ collectAll view reference (fun _ => []) schemas) :
    ∃ pointer ∈ allPointers schemas, a ∈ reference pointer := by
  match schemas with
  | [] => cases h
  | schema :: rest =>
    rw [collectAll, List.mem_append] at h
    unfold allPointers
    rcases h with h | h
    · obtain ⟨pointer, hm, ha⟩ := mem_of_mem_collect schema h
      exact ⟨pointer, List.mem_append_left _ hm, ha⟩
    · obtain ⟨pointer, hm, ha⟩ := mem_of_mem_collectAll rest h
      exact ⟨pointer, List.mem_append_right _ hm, ha⟩

theorem mem_of_mem_collectProperties {α : Type} {view : View} {reference : String → List α} {a : α}
    (properties : List (Property Schema))
    (h : a ∈ collectProperties view reference (fun _ => []) properties) :
    ∃ pointer ∈ propertyPointers properties, a ∈ reference pointer := by
  match properties with
  | [] => cases h
  | ⟨_, _, schema⟩ :: rest =>
    rw [collectProperties, List.mem_append] at h
    unfold propertyPointers
    rcases h with h | h
    · split at h
      · simp at h
      · obtain ⟨pointer, hm, ha⟩ := mem_of_mem_collect schema h
        exact ⟨pointer, List.mem_append_left _ hm, ha⟩
    · obtain ⟨pointer, hm, ha⟩ := mem_of_mem_collectProperties rest h
      exact ⟨pointer, List.mem_append_right _ hm, ha⟩

end

end Schema

/-! ## Lowering preserves what is gathered -/

namespace Api

section

variable {α : Type} (named : String → List α) (record : List String → List α) (api : Api)
  (context : Context)

theorem collect_withNull (nullable : Bool) (type : TypeExpr) :
    (withNull nullable type).collect named record = type.collect named record := by
  unfold withNull
  split
  · rw [TypeExpr.orNull, TypeExpr.collect_unionOf]
    simp [TypeExpr.collectAll, TypeExpr.collect]
  · rfl

/-- What is gathered from a type if there is one. -/
theorem collectAll_toList (type? : Option TypeExpr) :
    TypeExpr.collectAll named record type?.toList
      = (type?.getD .unknown).collect named record := by
  cases type? with
  | none => rfl
  | some type => exact TypeExpr.collectAll_singleton _ _ _

theorem collect_composed (kind : Composition) (nullable : Bool) (types : List TypeExpr) :
    (((composed kind types).map (withNull nullable)).getD .unknown).collect named record
      = TypeExpr.collectAll named record types := by
  cases types with
  | nil => rfl
  | cons type rest =>
      cases kind with
      | allOf =>
          show (withNull nullable (.intersectionOf (type :: rest))).collect named record = _
          rw [collect_withNull, TypeExpr.collect_intersectionOf]
      | oneOf | anyOf =>
          show (withNull nullable (.unionOf (type :: rest))).collect named record = _
          rw [collect_withNull, TypeExpr.collect_unionOf]

theorem collectAll_ofValue (base : Option Primitive) (values : List Json) :
    TypeExpr.collectAll named record (values.map (TypeExpr.ofValue base)) = [] := by
  induction values with
  | nil => rfl
  | cons value rest ih =>
      rw [List.map_cons, TypeExpr.collectAll, ih, TypeExpr.collect_ofValue, List.append_nil]

theorem map_name_lowerProperties (properties : List (Property Schema)) :
    (lowerProperties api context properties).map Field.name
      = Schema.shownNames context.view properties := by
  induction properties with
  | nil => rfl
  | cons property rest ih =>
      obtain ⟨name, required, schema⟩ := property
      rw [lowerProperties, List.map_append, ih, lowerProperty, Schema.shownNames]
      by_cases hh : context.view.hides schema.flags
      · simp [hh, Schema.shownNames]
      · simp [hh, Schema.shownNames]

mutual

/-- The leaves of a lowered type are the names of the references that the view shows, and its records
list what the view shows of the objects. -/
theorem collect_lower (schema : Schema) :
    ((lower api context schema).getD .unknown).collect named record
      = schema.collect context.view
          (fun pointer => (api.referenceType context pointer).collect named record) record := by
  match schema with
  | .reference flags pointer =>
    rw [lower, Option.getD_some, collect_withNull, Schema.collect]
  | .composite flags kind members =>
    rw [lower, collect_composed, Schema.collect, collectAll_lowerMembers members]
  | .enumeration _ [] _ => rfl
  | .enumeration flags (value :: values) base =>
    rw [lower, Option.getD_some, collect_withNull, TypeExpr.collect_unionOf, collectAll_ofValue]
    rfl
  | .array flags none =>
    rw [lower, Option.getD_some, collect_withNull]
    rfl
  | .array flags (some items) =>
    rw [lower, Option.getD_some, collect_withNull, TypeExpr.collect, Schema.collect,
      collect_lower items]
  | .object flags [] =>
    rw [lower, Option.getD_some, collect_withNull]
    rfl
  | .object flags (property :: rest) =>
    rw [lower, Option.getD_some, collect_withNull, TypeExpr.collect, Schema.collect]
    rw [← lowerProperties, map_name_lowerProperties, collectFields_lowerProperties]
  | .primitive flags kind =>
    rw [lower, Option.getD_some, collect_withNull]
    rfl
  | .unknown _ => rfl

theorem collectAll_lowerMembers (schemas : List Schema) :
    TypeExpr.collectAll named record (lowerMembers api context schemas)
      = Schema.collectAll context.view
          (fun pointer => (api.referenceType context pointer).collect named record) record
          schemas := by
  match schemas with
  | [] => rfl
  | schema :: rest =>
    rw [lowerMembers, TypeExpr.collectAll_append, collectAll_toList, collect_lower schema,
      collectAll_lowerMembers rest, Schema.collectAll]

theorem collectFields_lowerProperties (properties : List (Property Schema)) :
    TypeExpr.collectFields named record (lowerProperties api context properties)
      = Schema.collectProperties context.view
          (fun pointer => (api.referenceType context pointer).collect named record) record
          properties := by
  match properties with
  | [] => rfl
  | ⟨name, required, schema⟩ :: rest =>
    rw [lowerProperties, TypeExpr.collectFields_append, collectFields_lowerProperties rest,
      Schema.collectProperties, lowerProperty]
    -- a hidden property adds nothing on either side
    split
    · rfl
    · rw [TypeExpr.collectFields, TypeExpr.collectFields, List.append_nil, collect_lower schema]

end

end

/-! ## Views that hide nothing -/

section

variable {api : Api} {view : View} {access : Access} {qualified : Bool}

theorem flags_has_of_carries {schema : Schema} (h : schema.carries access = false) :
    schema.flags.has access = false := by
  match schema with
  | .composite _ _ _ | .object _ _ | .array _ (some _) =>
    rw [Schema.carries, Bool.or_eq_false_iff] at h
    exact h.1
  | .array _ none | .reference _ _ | .enumeration _ _ _ | .primitive _ _ | .unknown _ => exact h

theorem hides_eq_has (hview : view.hidden? = some access) (flags : Flags) :
    view.hides flags = flags.has access := by
  rw [View.hides, hview]

theorem referenceType_eq_full {pointer : String} (h : api.variantSuffix view pointer = "") :
    api.referenceType { qualified, view } pointer = api.referenceType { qualified } pointer := by
  have hfull : api.variantSuffix .full pointer = "" := by rw [variantSuffix]; rfl
  rw [referenceType, referenceType, h, hfull]

mutual

/-- A view lowers a schema like the full view if the schema carries nothing that it hides and none of
its references means a variant. -/
theorem lower_eq_full (hview : view.hidden? = some access) (schema : Schema)
    (hc : schema.carries access = false)
    (hp : ∀ pointer ∈ schema.pointers, api.variantSuffix view pointer = "") :
    lower api { qualified, view } schema = lower api { qualified } schema := by
  match schema with
  | .reference flags pointer =>
    rw [lower, lower, referenceType_eq_full (hp pointer List.mem_cons_self)]
  | .composite flags kind members =>
    rw [Schema.carries, Bool.or_eq_false_iff] at hc
    unfold Schema.pointers at hp
    rw [lower, lower, lowerMembers_eq_full hview members hc.2 hp]
  | .array flags (some items) =>
    rw [Schema.carries, Bool.or_eq_false_iff] at hc
    unfold Schema.pointers at hp
    rw [lower, lower, lower_eq_full hview items hc.2 hp]
  | .object flags (property :: rest) =>
    rw [Schema.carries, Bool.or_eq_false_iff] at hc
    unfold Schema.pointers at hp
    rw [lower, lower, ← lowerProperties, ← lowerProperties,
      lowerProperties_eq_full hview (property :: rest) hc.2 hp]
  | .object flags [] => rw [lower, lower]
  | .enumeration _ [] _ => rw [lower, lower]
  | .enumeration _ (value :: values) _ => rw [lower, lower]
  | .array _ none => rw [lower, lower]
  | .primitive _ _ => rw [lower, lower]
  | .unknown _ => rw [lower, lower]

theorem lowerMembers_eq_full (hview : view.hidden? = some access) (schemas : List Schema)
    (hc : Schema.anyCarries access schemas = false)
    (hp : ∀ pointer ∈ Schema.allPointers schemas, api.variantSuffix view pointer = "") :
    lowerMembers api { qualified, view } schemas = lowerMembers api { qualified } schemas := by
  match schemas with
  | [] => rw [lowerMembers, lowerMembers]
  | schema :: rest =>
    rw [Schema.anyCarries, Bool.or_eq_false_iff] at hc
    unfold Schema.allPointers at hp
    rw [lowerMembers, lowerMembers,
      lower_eq_full hview schema hc.1 fun _ hm => hp _ (List.mem_append_left _ hm),
      lowerMembers_eq_full hview rest hc.2 fun _ hm => hp _ (List.mem_append_right _ hm)]

theorem lowerProperties_eq_full (hview : view.hidden? = some access)
    (properties : List (Property Schema))
    (hc : Schema.anyPropertyCarries access properties = false)
    (hp : ∀ pointer ∈ Schema.propertyPointers properties, api.variantSuffix view pointer = "") :
    lowerProperties api { qualified, view } properties
      = lowerProperties api { qualified } properties := by
  match properties with
  | [] => rw [lowerProperties, lowerProperties]
  | ⟨name, required, schema⟩ :: rest =>
    rw [Schema.anyPropertyCarries, Bool.or_eq_false_iff] at hc
    unfold Schema.propertyPointers at hp
    -- no property is hidden, since none carries the flag
    have hshown : view.hides schema.flags = false := by
      rw [hides_eq_has hview, flags_has_of_carries hc.1]
    have hfull : View.full.hides schema.flags = false := rfl
    rw [lowerProperties, lowerProperties, lowerProperty, lowerProperty, hshown, hfull,
      lower_eq_full hview schema hc.1 fun _ hm => hp _ (List.mem_append_left _ hm),
      lowerProperties_eq_full hview rest hc.2 fun _ hm => hp _ (List.mem_append_right _ hm)]

end

/-- A reference from a schema that does not hold a flag means no variant for it. -/
theorem variantSuffix_of_not_holds (hview : view.hidden? = some access) {schema : Schema}
    (h : api.document.holds access schema = false) {pointer : String}
    (hm : pointer ∈ schema.pointers) : api.variantSuffix view pointer = "" := by
  rw [variantSuffix, hview]
  cases ht : api.document.schemaAt? pointer with
  | none => rfl
  | some target =>
      dsimp only
      cases hh : api.document.holds access target with
      | true => rw [Document.holds_of_mem_pointers hm ht hh] at h; cases h
      | false => rw [Bool.and_false]; rfl

/-- A view that hides nothing of a schema sees it as a whole. -/
theorem lower_eq_of_not_holds (hview : view.hidden? = some access) {schema : Schema}
    (h : api.document.holds access schema = false) :
    lower api { qualified, view } schema = lower api { qualified } schema := by
  have hcarries : schema.carries access = false := by
    cases hc : schema.carries access with
    | false => rfl
    | true => rw [Document.holds_iff.mpr (.inl hc)] at h; cases h
  exact lower_eq_full hview schema hcarries fun _ hm => variantSuffix_of_not_holds hview h hm

end

end Api

end OpenApi
