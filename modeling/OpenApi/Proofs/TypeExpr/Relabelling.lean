import OpenApi.Proofs.Schema.Outline

/-!
# Settings relabel types

A relabelling changes the texts of the names in a type, its primitives and the optional marks of its
fields, at every depth, and nothing else about it. The settings under which a schema is lowered do no
more than that, `lower_eq_relabel`: the type is the one under the default settings in the same view,
its names put into the namespace where names are qualified and its fields made required where all
properties are.

Lowering puts in namespaces and marks before it splices, a relabelling comes after. The two are compared
in the outline of the schema, which knows neither settings nor views: there both are choices, and one is
a relabelling of the other.
-/

namespace OpenApi

/-- What is changed about the names, the primitives and the optional marks in a type. -/
structure Relabelling where
  name : String → String := id
  kind : Primitive → Primitive := id
  optional : Bool → Bool := id

namespace TypeExpr

section

variable (change : Relabelling)

mutual

/-- Changes the labels of a type, at every depth. -/
def relabel : TypeExpr → TypeExpr
  | named name => named (change.name name)
  | primitive kind => primitive (change.kind kind)
  | array item => array (relabel item)
  | record fields => record (relabelFields fields)
  | union members => union (relabelAll members)
  | intersection members => intersection (relabelAll members)
  | leaf => leaf

/-- Changes the labels of some types. -/
def relabelAll : List TypeExpr → List TypeExpr
  | [] => []
  | type :: rest => relabel type :: relabelAll rest

/-- Changes the optional marks of some fields and the labels of their types. -/
def relabelFields : List (Field TypeExpr) → List (Field TypeExpr)
  | [] => []
  | ⟨name, optional, type⟩ :: rest =>
    ⟨name, change.optional optional, relabel type⟩ :: relabelFields rest

end

theorem relabelAll_eq_map (types : List TypeExpr) :
    relabelAll change types = types.map (relabel change) := by
  induction types with
  | nil => rfl
  | cons type rest ih => rw [relabelAll, ih, List.map_cons]

theorem relabelFields_eq_map (fields : List (Field TypeExpr)) :
    relabelFields change fields = fields.map fun field =>
      ⟨field.name, change.optional field.optional, field.type.relabel change⟩ := by
  induction fields with
  | nil => rfl
  | cons field rest ih => rw [relabelFields, ih, List.map_cons]

/-- Where primitives are left alone, so is every atom. -/
theorem relabel_of_isAtom {type : TypeExpr} (hkind : change.kind = id) (ha : type.isAtom = true) :
    type.relabel change = type := by
  cases type with
  | primitive kind => rw [relabel, hkind, id_eq]
  | stringLiteral _ | literal _ | null | unknown | openObject => rfl
  | named _ | array _ | record _ | union _ | intersection _ => cases ha

end

end TypeExpr

/-! ## Relabelling choices -/

namespace Outline

open TypeExpr

/-- Two choices hide the same, and one names and marks as the relabelling of what the other does. -/
structure Choice.Relabels (change : Relabelling) (choice choice' : Choice) : Prop where
  name : ∀ pointer, change.name (choice.name pointer) = choice'.name pointer
  kind : change.kind = id
  hides : ∀ flags, choice.hides flags = choice'.hides flags
  optional : ∀ required,
    change.optional (!(required || choice.allRequired)) = !(required || choice'.allRequired)

section

variable {change : Relabelling} {choice choice' : Choice}

mutual

/-- To choose and then to relabel is to make the relabelled choices. -/
theorem relabel_type (h : choice.Relabels change choice') (outline : Outline) :
    (outline.type choice).relabel change = outline.type choice' := by
  match outline with
  | .reference pointer => rw [type, type, relabel, h.name]
  | .atom leaf ha => rw [type, type, relabel_of_isAtom change h.kind ha]
  | .array item => rw [type, type, relabel, relabel_type h item]
  | .record slots => rw [type, type, relabel, relabelFields_typeSlots h slots]
  | .union members => rw [type, type, relabel, relabelAll_typeAll h members]
  | .intersection members => rw [type, type, relabel, relabelAll_typeAll h members]

theorem relabelAll_typeAll (h : choice.Relabels change choice') (outlines : List Outline) :
    relabelAll change (typeAll choice outlines) = typeAll choice' outlines := by
  match outlines with
  | [] => rfl
  | outline :: rest =>
    rw [typeAll, typeAll, relabelAll, relabel_type h outline, relabelAll_typeAll h rest]

theorem relabelFields_typeSlots (h : choice.Relabels change choice') (slots : List (Slot Outline)) :
    relabelFields change (typeSlots choice slots) = typeSlots choice' slots := by
  match slots with
  | [] => rfl
  | ⟨name, required, flags, outline⟩ :: rest =>
    rw [typeSlots, typeSlots, ← h.hides]
    -- the same fields are left out on both sides
    split
    · exact relabelFields_typeSlots h rest
    · rw [relabelFields, h.optional, relabel_type h outline, relabelFields_typeSlots h rest]

end

end

end Outline

/-! ## Lowering -/

/-- What settings change about a type: names are put into the namespace where they are qualified and
there is one, and no field is optional where all properties are required. -/
def Settings.relabelling (settings : Settings) (qualified : Bool) : Relabelling where
  name name :=
    if qualified ∧ settings.schemaNamespace ≠ "" then settings.schemaNamespace ++ "." ++ name
    else name
  optional optional := optional && !settings.requiredProperties

namespace Api

/-- Without a namespace a name is the type name of its pointer, qualified or not. -/
theorem plainName_default (document : Document) (qualified : Bool) (pointer : String) :
    plainName ⟨document, {}⟩ qualified pointer = Reference.typeName pointer := by
  unfold plainName
  rw [if_neg]
  rintro ⟨-, hne⟩
  exact hne rfl

/-- The namespace comes before the suffix of a variant, and which variant is meant is up to the document
and the view. -/
theorem relabels_choice (api : Api) (qualified qualified' : Bool) (view : View) :
    (choice ⟨api.document, {}⟩ { qualified := qualified', view }).Relabels
      (api.settings.relabelling qualified) (api.choice { qualified, view }) where
  name pointer := by
    show (api.settings.relabelling qualified).name
        (plainName ⟨api.document, {}⟩ qualified' pointer ++ api.variantSuffix view pointer)
      = api.plainName qualified pointer ++ api.variantSuffix view pointer
    rw [plainName_default]
    unfold plainName Settings.relabelling
    dsimp only
    split
    · rw [← String.append_assoc]
    · rfl
  kind := rfl
  hides _ := rfl
  optional required := by
    show (!(required || false) && !api.settings.requiredProperties)
      = !(required || api.settings.requiredProperties)
    rw [Bool.or_false, Bool.not_or]

/-- Settings, and whether names are qualified, only relabel types. A schema has a type under given
settings exactly if it has one under the default settings in the same view, and the first is the second
with each of its names, at every depth, put into the namespace where names are qualified and there is a
namespace, and with no field optional where all properties are required. -/
theorem lower_eq_relabel (api : Api) (qualified qualified' : Bool) (view : View) (schema : Schema) :
    lower api { qualified, view } schema
      = (lower { api with settings := {} } { qualified := qualified', view } schema).map
          (TypeExpr.relabel (api.settings.relabelling qualified)) := by
  rw [lower_eq_outline, lower_eq_outline, Option.map_map]
  apply Option.map_congr
  intro outline _
  exact (Outline.relabel_type (relabels_choice api qualified qualified' view) outline).symm

/-- A variant of a name is put into the namespace as a whole. -/
example :
    let user : Json := .object
      [("properties", .object [("id", .object [("readOnly", .bool true)])])]
    let document : Document :=
      ⟨"mem:/users", .object [("components", .object [("schemas", .object [("User", user)])])]⟩
    let api : Api := ⟨document, { schemaNamespace := "schema", requiredProperties := true }⟩
    let schema : Schema :=
      .object {} [⟨"owner", false, .reference {} "#/components/schemas/User"⟩]
    (api.lower { qualified := true, view := .request } schema).map TypeExpr.text
        = some "{ owner: schema.UserWritable }" ∧
      (Api.lower ⟨document, {}⟩ { view := .request } schema).map TypeExpr.text
        = some "{ owner?: UserWritable }" := by
  decide

end Api

end OpenApi
