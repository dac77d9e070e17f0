import Mathlib.Logic.Relation
import OpenApi.Proofs.Json.Path
import OpenApi.Schema.Access

/-!
# What a schema carries and what it refers to

The search for a flag goes through trees and along references at once. Here the two are taken apart: the
flags that a schema carries in its own tree, `Schema.carries`, the pointers of the references in that
tree, `Schema.pointers`, and the references from pointer to pointer, `Document.Refers`.

Every pointer of a schema is the text of a reference in the value that it was read from,
`Schema.pointers_ofJson_subset`. So all pointers that a document leads to are among the texts of its own
references, `Document.successors_subset_references`.
-/

namespace OpenApi

namespace Schema

mutual

/-- Whether a node of the schema's own tree has the flag. -/
def carries (access : Access) : Schema → Bool
  | .composite flags _ members => flags.has access || anyCarries access members
  | .object flags properties => flags.has access || anyPropertyCarries access properties
  | .array flags (some items) => flags.has access || carries access items
  | .array flags none => flags.has access
  | .reference flags _ => flags.has access
  | .enumeration flags _ _ => flags.has access
  | .primitive flags _ => flags.has access
  | .unknown flags => flags.has access

/-- Whether one of some schemas carries the flag. -/
def anyCarries (access : Access) : List Schema → Bool
  | [] => false
  | schema :: rest => carries access schema || anyCarries access rest

/-- Whether one of some properties carries the flag. -/
def anyPropertyCarries (access : Access) : List (Property Schema) → Bool
  | [] => false
  | ⟨_, _, schema⟩ :: rest => carries access schema || anyPropertyCarries access rest

end

mutual

/-- The pointers of the references in the schema's own tree. -/
def pointers : Schema → List String
  | .reference _ pointer => [pointer]
  | .composite _ _ members => allPointers members
  | .object _ properties => propertyPointers properties
  | .array _ (some items) => pointers items
  | _ => []

/-- The pointers of the references in some schemas. -/
def allPointers : List Schema → List String
  | [] => []
  | schema :: rest => pointers schema ++ allPointers rest

/-- The pointers of the references in some properties. -/
def propertyPointers : List (Property Schema) → List String
  | [] => []
  | ⟨_, _, schema⟩ :: rest => pointers schema ++ propertyPointers rest

end

/-! ## The pointers of a schema are references of the value it was read from -/

/-- The pointers of the schemas below an object schema are among some texts. -/
structure Parts.Within (found : Parts) (texts : List String) : Prop where
  allOf : ∀ {schemas}, found.allOf = some schemas → allPointers schemas ⊆ texts
  oneOf : ∀ {schemas}, found.oneOf = some schemas → allPointers schemas ⊆ texts
  anyOf : ∀ {schemas}, found.anyOf = some schemas → allPointers schemas ⊆ texts
  items : ∀ {schema}, found.items = some schema → schema.pointers ⊆ texts
  properties : ∀ {name schema}, (name, schema) ∈ found.properties → schema.pointers ⊆ texts

theorem mem_allPointers {schemas : List Schema} {pointer : String} :
    pointer ∈ allPointers schemas ↔ ∃ schema ∈ schemas, pointer ∈ schema.pointers := by
  induction schemas with
  | nil => simp [allPointers]
  | cons schema rest ih => simp [allPointers, ih]

theorem mem_propertyPointers {properties : List (Property Schema)} {pointer : String} :
    pointer ∈ propertyPointers properties ↔
      ∃ property ∈ properties, pointer ∈ property.schema.pointers := by
  induction properties with
  | nil => simp [propertyPointers]
  | cons property rest ih => simp [propertyPointers, ih]

theorem Parts.Within.mono {found : Parts} {texts texts' : List String} (h : found.Within texts)
    (hs : texts ⊆ texts') : found.Within texts' where
  allOf he := List.Subset.trans (h.allOf he) hs
  oneOf he := List.Subset.trans (h.oneOf he) hs
  anyOf he := List.Subset.trans (h.anyOf he) hs
  items he := List.Subset.trans (h.items he) hs
  properties hm := List.Subset.trans (h.properties hm) hs

section

variable {members : Members} {found : Parts} {texts : List String}

theorem pointers_objectShape (h : found.Within texts) (flags : Flags) :
    (objectShape members found flags).pointers ⊆ texts := by
  intro pointer hm
  rw [objectShape, pointers, mem_propertyPointers] at hm
  obtain ⟨property, hp, hm⟩ := hm
  obtain ⟨⟨name, schema⟩, hs, rfl⟩ := List.mem_map.mp hp
  exact h.properties hs hm

theorem pointers_typedShape (h : found.Within texts) (flags : Flags) (type : String) :
    (typedShape members found flags type).pointers ⊆ texts := by
  unfold typedShape
  split
  · cases hi : found.items with
    | none => exact List.nil_subset _
    | some items =>
        unfold pointers
        exact h.items hi
  · split
    · exact pointers_objectShape h flags
    · split <;> exact List.nil_subset _

theorem pointers_shapeByType (h : found.Within texts) (flags : Flags) :
    (shapeByType members found flags).pointers ⊆ texts := by
  unfold shapeByType
  split
  · split
    · exact pointers_objectShape h flags
    · exact List.nil_subset _
  · exact pointers_typedShape h flags _
  · -- several types make one schema for each, all from the same parts
    intro pointer hm
    rw [pointers, mem_allPointers] at hm
    obtain ⟨schema, hs, hm⟩ := hm
    obtain ⟨type, _, rfl⟩ := List.mem_map.mp hs
    exact pointers_typedShape h _ type hm

/-- An object schema has the pointer of its own reference, or those of the schemas below it. -/
theorem pointers_assemble (h : found.Within texts)
    (hr : ∀ {text}, (Json.object members).reference? = some text → text ∈ texts) :
    (assemble members found).pointers ⊆ texts := by
  unfold assemble
  split
  · next pointer hp =>
      unfold pointers
      exact List.cons_subset.mpr ⟨hr hp, List.nil_subset _⟩
  · split
    · next hs => exact h.allOf hs
    · next hs => exact h.oneOf hs
    · next hs => exact h.anyOf hs
    · dsimp only
      split
      · exact List.nil_subset _
      · split
        · exact List.nil_subset _
        · exact pointers_shapeByType h _

end

mutual

/-- The pointers of a schema are texts of references in the value that it was read from. -/
theorem pointers_ofJson_subset (value : Json) : (ofJson value).pointers ⊆ value.references := by
  cases value with
  | object members =>
      rw [ofJson, Json.references]
      apply pointers_assemble ((parts_within members).mono (List.subset_append_right _ _))
      intro text hr
      rw [hr]
      exact List.mem_append_left _ (Option.mem_toList.mpr rfl)
  | _ => exact List.nil_subset _

theorem parts_within (members : List (String × Json)) :
    (parts members).Within (Json.memberReferences members) := by
  match members with
  | [] => constructor <;> intros <;> contradiction
  | (name, value) :: rest =>
    have hrest := (parts_within rest).mono (List.subset_append_right value.references _)
    have hvalue : value.references ⊆ value.references ++ Json.memberReferences rest :=
      List.subset_append_left _ _
    -- each keyword adds the schemas of its own value to those of the rest
    rw [parts, Json.memberReferences]
    split
    · exact { hrest with
        allOf := fun h => List.Subset.trans (allPointers_ofArray_subset value h) hvalue }
    split
    · exact { hrest with
        oneOf := fun h => List.Subset.trans (allPointers_ofArray_subset value h) hvalue }
    split
    · exact { hrest with
        anyOf := fun h => List.Subset.trans (allPointers_ofArray_subset value h) hvalue }
    split
    · refine { hrest with items := fun h => ?_ }
      cases h
      exact List.Subset.trans (pointers_ofJson_subset value) hvalue
    split
    · exact { hrest with
        properties := fun h => List.Subset.trans (pointers_ofObject_subset value h) hvalue }
    · exact hrest

theorem allPointers_ofArray_subset (value : Json) {schemas : List Schema}
    (h : ofArray value = some schemas) : allPointers schemas ⊆ value.references := by
  cases value with
  | array items =>
      unfold ofArray at h
      cases h
      unfold Json.references
      exact allPointers_ofItems_subset items
  | _ => cases h

theorem allPointers_ofItems_subset (items : List Json) :
    allPointers (ofItems items) ⊆ Json.itemReferences items := by
  match items with
  | [] => exact List.nil_subset _
  | item :: rest =>
    rw [ofItems, allPointers, Json.itemReferences]
    exact List.append_subset.mpr
      ⟨List.Subset.trans (pointers_ofJson_subset item) (List.subset_append_left _ _),
        List.Subset.trans (allPointers_ofItems_subset rest) (List.subset_append_right _ _)⟩

theorem pointers_ofObject_subset (value : Json) {name : String} {schema : Schema}
    (h : (name, schema) ∈ ofObject value) : schema.pointers ⊆ value.references := by
  cases value with
  | object members =>
      unfold ofObject at h
      unfold Json.references
      exact List.Subset.trans (pointers_ofMembers_subset members h) (List.subset_append_right _ _)
  | _ => cases h

theorem pointers_ofMembers_subset (members : List (String × Json)) {name : String}
    {schema : Schema} (h : (name, schema) ∈ ofMembers members) :
    schema.pointers ⊆ Json.memberReferences members := by
  match members with
  | [] => cases h
  | (key, value) :: rest =>
    rw [ofMembers, List.mem_cons] at h
    unfold Json.memberReferences
    rcases h with h | h
    · cases h
      exact List.Subset.trans (pointers_ofJson_subset value) (List.subset_append_left _ _)
    · exact List.Subset.trans (pointers_ofMembers_subset rest h) (List.subset_append_right _ _)

end

end Schema

namespace Document

variable {doc : Document}

/-! ## From pointer to pointer -/

/-- The pointers in the schema that a pointer designates. -/
def successors (doc : Document) (pointer : String) : List String :=
  ((doc.schemaAt? pointer).map Schema.pointers).getD []

theorem successors_subset_references (doc : Document) (pointer : String) :
    doc.successors pointer ⊆ doc.root.references := by
  rw [successors, schemaAt?]
  cases hn : doc.resolve? pointer with
  | none => exact List.nil_subset _
  | some node =>
      rw [resolve?, Json.resolveLocal?] at hn
      split at hn
      · exact List.Subset.trans (Schema.pointers_ofJson_subset node)
          (Json.references_subset_of_resolve? hn)
      · simp at hn

/-- One pointer is held by the schema at another. -/
def Refers (doc : Document) (pointer next : String) : Prop := next ∈ doc.successors pointer

theorem refers_iff {pointer next : String} :
    doc.Refers pointer next ↔
      ∃ target, doc.schemaAt? pointer = some target ∧ next ∈ target.pointers := by
  rw [Refers, successors]
  cases doc.schemaAt? pointer <;> simp

end Document

end OpenApi
