import OpenApi.Schema.Lowering

/-!
# Views differ by fields and names only

An outline is what a type is before a context is chosen: its references are still pointers, and its
fields still know the flags of their properties. A schema has one outline whatever the view and the
settings (`Document.outline`), and lowering it in any context is to make the same choices throughout the
outline: how references are called, which fields are left out, which of the others are optional
(`lower_eq_outline`). A view can therefore change nothing else, `lower_views`.

Outlines are built like types, splicing unions into unions; that this commutes with the choices is all
there is to prove. It does because a reference becomes a name and a record stays a record, however few
fields it keeps.
-/

namespace OpenApi

/-- A type in which no other type stands, and no name. -/
def TypeExpr.isAtom : TypeExpr → Bool
  | .primitive _ | .stringLiteral _ | .literal _ | .null | .unknown | .openObject => true
  | _ => false

/-- Some members together; a single one stands for itself. -/
def collapse {α : Type} (wrap : List α → α) : List α → α
  | [single] => single
  | several => wrap several

theorem map_collapse {α β : Type} {f : α → β} {wrap : List α → α} {wrap' : List β → β}
    (h : ∀ list, f (wrap list) = wrap' (list.map f)) (list : List α) :
    f (collapse wrap list) = collapse wrap' (list.map f) := by
  match list with
  | [] => exact h []
  | [single] => rfl
  | first :: second :: rest => exact h (first :: second :: rest)

theorem TypeExpr.unionOf_eq_collapse (types : List TypeExpr) :
    unionOf types = collapse union (types.flatMap unionMembers) := by
  rw [unionOf]
  split
  · next heq => rw [heq, collapse]
  · next h => exact (collapse.eq_2 _ _ h).symm

theorem TypeExpr.intersectionOf_eq_collapse (types : List TypeExpr) :
    intersectionOf types = collapse intersection (types.flatMap intersectionMembers) := by
  rw [intersectionOf]
  split
  · next heq => rw [heq, collapse]
  · next h => exact (collapse.eq_2 _ _ h).symm

/-- A field before a context is chosen. -/
structure Slot (α : Type) where
  name : String
  required : Bool
  /-- The flags of the schema of the property. -/
  flags : Flags
  type : α

/-- A type before a context is chosen. -/
inductive Outline where
  | reference (pointer : String)
  | atom (type : TypeExpr) (h : type.isAtom = true)
  | array (item : Outline)
  | record (slots : List (Slot Outline))
  | union (members : List Outline)
  | intersection (members : List Outline)

namespace Outline

/-! ## Building -/

/-- The type null. -/
def null : Outline := atom .null (by decide)

/-- What stands for a schema without recognised shape. -/
def unknown : Outline := atom .unknown (by decide)

/-- The members that an outline contributes to a union. -/
def unionMembers : Outline → List Outline
  | union members => members
  | other => [other]

/-- The members that an outline contributes to an intersection. -/
def intersectionMembers : Outline → List Outline
  | intersection members => members
  | other => [other]

/-- The union of some outlines, spliced; one member stands for itself. -/
def unionOf (outlines : List Outline) : Outline := collapse union (outlines.flatMap unionMembers)

/-- The intersection of some outlines, spliced; one member stands for itself. -/
def intersectionOf (outlines : List Outline) : Outline :=
  collapse intersection (outlines.flatMap intersectionMembers)

/-- Adds null to an outline if asked to. -/
def withNull (nullable : Bool) (outline : Outline) : Outline :=
  if nullable then unionOf [outline, null] else outline

/-- The outline of a composite, which needs at least one member with an outline. -/
def composed (kind : Composition) : List Outline → Option Outline
  | [] => none
  | outlines =>
    match kind with
    | .allOf => some (intersectionOf outlines)
    | .oneOf => some (unionOf outlines)
    | .anyOf => some (unionOf outlines)

theorem isAtom_ofValue (base : Option Primitive) (value : Json) :
    (TypeExpr.ofValue base value).isAtom = true := by
  rw [TypeExpr.ofValue.eq_def]
  split
  · rfl
  · split <;> rfl
  · split <;> rfl

/-- The outline of a member of an enumeration. -/
def ofValue (base : Option Primitive) (value : Json) : Outline :=
  atom (TypeExpr.ofValue base value) (isAtom_ofValue base value)

/-! ## Choosing a context -/

/-- What a context decides about outlines. -/
structure Choice where
  /-- The name of the type that a pointer stands for. -/
  name : String → String
  /-- Which fields are left out, by the flags of their properties. -/
  hides : Flags → Bool
  /-- Whether all fields that are kept are there always. -/
  allRequired : Bool

section

variable (choice : Choice)

mutual

/-- The type that the choices make of an outline. -/
def type : Outline → TypeExpr
  | reference pointer => .named (choice.name pointer)
  | atom type _ => type
  | array item => .array (type item)
  | record slots => .record (typeSlots slots)
  | union members => .union (typeAll members)
  | intersection members => .intersection (typeAll members)

/-- The types that the choices make of some outlines. -/
def typeAll : List Outline → List TypeExpr
  | [] => []
  | outline :: rest => type outline :: typeAll rest

/-- The fields that the choices keep of some slots. -/
def typeSlots : List (Slot Outline) → List (Field TypeExpr)
  | [] => []
  | ⟨name, required, flags, outline⟩ :: rest =>
    if choice.hides flags then typeSlots rest
    else ⟨name, !(required || choice.allRequired), type outline⟩ :: typeSlots rest

end

theorem typeAll_eq_map (outlines : List Outline) :
    typeAll choice outlines = outlines.map (type choice) := by
  induction outlines with
  | nil => rfl
  | cons outline rest ih => rw [typeAll, ih, List.map_cons]

theorem unionMembers_of_isAtom {type : TypeExpr} (h : type.isAtom = true) :
    type.unionMembers = [type] := by
  cases type <;> first | rfl | cases h

theorem intersectionMembers_of_isAtom {type : TypeExpr} (h : type.isAtom = true) :
    type.intersectionMembers = [type] := by
  cases type <;> first | rfl | cases h

theorem unionMembers_type (outline : Outline) :
    (outline.type choice).unionMembers = outline.unionMembers.map (type choice) := by
  cases outline with
  | union members =>
      rw [type, TypeExpr.unionMembers, unionMembers, typeAll_eq_map]
  | atom type h =>
      rw [Outline.type, unionMembers_of_isAtom h]
      rfl
  | _ => rfl

theorem intersectionMembers_type (outline : Outline) :
    (outline.type choice).intersectionMembers
      = outline.intersectionMembers.map (type choice) := by
  cases outline with
  | intersection members =>
      rw [type, TypeExpr.intersectionMembers, intersectionMembers, typeAll_eq_map]
  | atom type h =>
      rw [Outline.type, intersectionMembers_of_isAtom h]
      rfl
  | _ => rfl

/-- Splicing before the choices is splicing after them. -/
theorem map_type_flatMap {splice : Outline → List Outline} {splice' : TypeExpr → List TypeExpr}
    (h : ∀ outline, splice' (outline.type choice) = (splice outline).map (type choice))
    (outlines : List Outline) :
    (outlines.flatMap splice).map (type choice)
      = (outlines.map (type choice)).flatMap splice' := by
  rw [List.flatMap_map, List.map_flatMap]
  exact congrArg (outlines.flatMap ·) (funext fun outline => (h outline).symm)

theorem type_unionOf (outlines : List Outline) :
    (unionOf outlines).type choice = .unionOf (outlines.map (type choice)) := by
  have hwrap : ∀ members, (union members).type choice = .union (members.map (type choice)) :=
    fun members => by rw [type, typeAll_eq_map]
  rw [unionOf, map_collapse hwrap, map_type_flatMap choice (unionMembers_type choice),
    TypeExpr.unionOf_eq_collapse]

theorem type_intersectionOf (outlines : List Outline) :
    (intersectionOf outlines).type choice = .intersectionOf (outlines.map (type choice)) := by
  have hwrap : ∀ members,
      (intersection members).type choice = .intersection (members.map (type choice)) :=
    fun members => by rw [type, typeAll_eq_map]
  rw [intersectionOf, map_collapse hwrap,
    map_type_flatMap choice (intersectionMembers_type choice),
    TypeExpr.intersectionOf_eq_collapse]

theorem type_withNull (nullable : Bool) (outline : Outline) :
    (withNull nullable outline).type choice = Api.withNull nullable (outline.type choice) := by
  unfold withNull Api.withNull
  split
  · rw [type_unionOf]
    rfl
  · rfl

theorem type_getD (outline? : Option Outline) :
    (outline?.getD unknown).type choice = (outline?.map (type choice)).getD .unknown := by
  cases outline? <;> rfl

theorem map_type_composed (kind : Composition) (outlines : List Outline) :
    (composed kind outlines).map (type choice)
      = Api.composed kind (outlines.map (type choice)) := by
  cases outlines with
  | nil => rfl
  | cons first rest =>
      cases kind with
      | allOf => exact congrArg some (type_intersectionOf choice (first :: rest))
      | oneOf | anyOf => exact congrArg some (type_unionOf choice (first :: rest))

end

/-! ## Marks -/

/-- What choices are made about: a reference, or a property. -/
inductive Mark where
  | reference (pointer : String)
  | property (name : String) (required : Bool) (flags : Flags)

mutual

/-- The marks of an outline, in order of appearance: a property before those in its type. -/
def marks : Outline → List Mark
  | reference pointer => [.reference pointer]
  | atom _ _ => []
  | array item => marks item
  | record slots => slotMarks slots
  | union members => allMarks members
  | intersection members => allMarks members

/-- The marks of some outlines. -/
def allMarks : List Outline → List Mark
  | [] => []
  | outline :: rest => marks outline ++ allMarks rest

/-- The marks of some slots. -/
def slotMarks : List (Slot Outline) → List Mark
  | [] => []
  | ⟨name, required, flags, outline⟩ :: rest =>
    .property name required flags :: (marks outline ++ slotMarks rest)

end

theorem allMarks_eq_flatMap (outlines : List Outline) : allMarks outlines = outlines.flatMap marks := by
  induction outlines with
  | nil => rfl
  | cons outline rest ih => rw [allMarks, ih, List.flatMap_cons]

theorem flatMap_marks_unionMembers (outline : Outline) :
    outline.unionMembers.flatMap marks = outline.marks := by
  cases outline with
  | union members => rw [unionMembers, marks, allMarks_eq_flatMap]
  | _ => exact List.flatMap_singleton marks _

theorem flatMap_marks_intersectionMembers (outline : Outline) :
    outline.intersectionMembers.flatMap marks = outline.marks := by
  cases outline with
  | intersection members => rw [intersectionMembers, marks, allMarks_eq_flatMap]
  | _ => exact List.flatMap_singleton marks _

/-- Splicing moves no marks. -/
theorem flatMap_marks_flatMap {splice : Outline → List Outline}
    (h : ∀ outline, (splice outline).flatMap marks = outline.marks) (outlines : List Outline) :
    (outlines.flatMap splice).flatMap marks = outlines.flatMap marks := by
  rw [List.flatMap_assoc]
  exact congrArg (outlines.flatMap ·) (funext h)

theorem marks_collapse {wrap : List Outline → Outline}
    (h : ∀ members, (wrap members).marks = members.flatMap marks) (members : List Outline) :
    (collapse wrap members).marks = members.flatMap marks := by
  match members with
  | [] => exact h []
  | [single] => exact (List.flatMap_singleton marks single).symm
  | first :: second :: rest => exact h (first :: second :: rest)

theorem marks_unionOf (outlines : List Outline) :
    (unionOf outlines).marks = outlines.flatMap marks := by
  rw [unionOf, marks_collapse fun members => by rw [marks, allMarks_eq_flatMap],
    flatMap_marks_flatMap flatMap_marks_unionMembers]

theorem marks_intersectionOf (outlines : List Outline) :
    (intersectionOf outlines).marks = outlines.flatMap marks := by
  rw [intersectionOf, marks_collapse fun members => by rw [marks, allMarks_eq_flatMap],
    flatMap_marks_flatMap flatMap_marks_intersectionMembers]

theorem marks_withNull (nullable : Bool) (outline : Outline) :
    (withNull nullable outline).marks = outline.marks := by
  unfold withNull
  split
  · rw [marks_unionOf, List.flatMap_cons, List.flatMap_singleton]
    exact List.append_nil _
  · rfl

theorem marks_composed (kind : Composition) (nullable : Bool) (outlines : List Outline) :
    (((composed kind outlines).map (withNull nullable)).getD unknown).marks
      = outlines.flatMap marks := by
  cases outlines with
  | nil => rfl
  | cons first rest =>
      cases kind with
      | allOf => exact (marks_withNull _ _).trans (marks_intersectionOf (first :: rest))
      | oneOf | anyOf => exact (marks_withNull _ _).trans (marks_unionOf (first :: rest))

end Outline

namespace Schema

mutual

/-- The marks of a schema, in order of appearance: its references, and the properties of its objects
with their own flags. -/
def marks : Schema → List Outline.Mark
  | .reference _ pointer => [.reference pointer]
  | .composite _ _ members => allMarks members
  | .object _ properties => propertyMarks properties
  | .array _ (some items) => marks items
  | _ => []

/-- The marks of some schemas. -/
def allMarks : List Schema → List Outline.Mark
  | [] => []
  | schema :: rest => marks schema ++ allMarks rest

/-- The marks of some properties. -/
def propertyMarks : List (Property Schema) → List Outline.Mark
  | [] => []
  | ⟨name, required, schema⟩ :: rest =>
    .property name required schema.flags :: (marks schema ++ propertyMarks rest)

end

end Schema

/-! ## The outline of a schema -/

namespace Document

variable (doc : Document)

mutual

/-- The outline of a schema, if it has a recognised shape. -/
def outline : Schema → Option Outline
  | .reference flags pointer =>
    let nullable := ((doc.resolve? pointer).map Schema.valueAdmitsNull).getD false
    some (.withNull (flags.nullable || nullable) (.reference pointer))
  | .composite flags kind members =>
    (Outline.composed kind (outlineMembers members)).map (.withNull flags.nullable)
  | .enumeration _ [] _ => none
  | .enumeration flags (value :: values) base =>
    some (.withNull flags.nullable (.unionOf ((value :: values).map (.ofValue base))))
  | .array flags none => some (.withNull flags.nullable (.array .unknown))
  | .array flags (some items) =>
    some (.withNull flags.nullable (.array ((outline items).getD .unknown)))
  | .object flags [] => some (.withNull flags.nullable (.atom .openObject (by decide)))
  | .object flags (property :: rest) =>
    some (.withNull flags.nullable (.record (slot property :: slots rest)))
  | .primitive flags kind => some (.withNull flags.nullable (.atom (.primitive kind) (by rfl)))
  | .unknown _ => none

/-- The outlines of those members that have one. -/
def outlineMembers : List Schema → List Outline
  | [] => []
  | schema :: rest => (outline schema).toList ++ outlineMembers rest

/-- The slot of a property. -/
def slot : Property Schema → Slot Outline
  | ⟨name, required, schema⟩ =>
    ⟨name, required, schema.flags, (outline schema).getD .unknown⟩

/-- The slots of some properties. -/
def slots : List (Property Schema) → List (Slot Outline)
  | [] => []
  | property :: rest => slot property :: slots rest

end

variable {doc}

mutual

/-- The outline of a schema has the marks of the schema, none of them lost or in another place. What
has no outline has no marks. -/
theorem marks_outline (schema : Schema) :
    ((doc.outline schema).getD .unknown).marks = schema.marks := by
  match schema with
  | .reference flags pointer =>
    rw [outline, Option.getD_some, Outline.marks_withNull]
    rfl
  | .composite flags kind members =>
    rw [outline, Outline.marks_composed, flatMap_marks_outlineMembers members, Schema.marks]
  | .enumeration _ [] _ => rfl
  | .enumeration flags (value :: values) base =>
    rw [outline, Option.getD_some, Outline.marks_withNull, Outline.marks_unionOf, List.flatMap_map]
    exact List.flatMap_eq_nil_iff.mpr fun _ _ => rfl
  | .array flags none =>
    rw [outline, Option.getD_some, Outline.marks_withNull]
    rfl
  | .array flags (some items) =>
    rw [outline, Option.getD_some, Outline.marks_withNull, Outline.marks, marks_outline items,
      Schema.marks]
  | .object flags [] =>
    rw [outline, Option.getD_some, Outline.marks_withNull]
    rfl
  | .object flags (property :: rest) =>
    rw [outline, Option.getD_some, Outline.marks_withNull, Outline.marks, Schema.marks, ← slots,
      slotMarks_slots (property :: rest)]
  | .primitive flags kind =>
    rw [outline, Option.getD_some, Outline.marks_withNull]
    rfl
  | .unknown _ => rfl

theorem flatMap_marks_outlineMembers (schemas : List Schema) :
    (doc.outlineMembers schemas).flatMap Outline.marks = Schema.allMarks schemas := by
  match schemas with
  | [] => rfl
  | schema :: rest =>
    rw [outlineMembers, List.flatMap_append, flatMap_marks_outlineMembers rest, Schema.allMarks,
      ← marks_outline schema]
    cases doc.outline schema with
    | none => rfl
    | some found => rw [Option.toList_some, List.flatMap_singleton, Option.getD_some]

theorem slotMarks_slots (properties : List (Property Schema)) :
    Outline.slotMarks (doc.slots properties) = Schema.propertyMarks properties := by
  match properties with
  | [] => rfl
  | ⟨name, required, schema⟩ :: rest =>
    rw [slots, slot, Outline.slotMarks, slotMarks_slots rest, marks_outline schema,
      Schema.propertyMarks]

end

/-- A reference means a variant: it leads to a component schema that holds a flag. -/
def varies (doc : Document) (access : Access) (pointer : String) : Bool :=
  isComponentSchema pointer && (doc.schemaAt? pointer).any (doc.holds access)

end Document

namespace Api

/-- The name of the type that a pointer stands for in the full view. -/
def plainName (api : Api) (qualified : Bool) (pointer : String) : String :=
  let space := api.settings.schemaNamespace
  if qualified ∧ space ≠ "" then space ++ "." ++ Reference.typeName pointer
  else Reference.typeName pointer

/-- What a context decides about outlines. -/
def choice (api : Api) (context : Context) : Outline.Choice where
  name pointer := api.plainName context.qualified pointer ++ api.variantSuffix context.view pointer
  hides := context.view.hides
  allRequired := api.settings.requiredProperties

section

variable (api : Api) (context : Context)

/-- The suffix of a variant comes after the namespace. -/
theorem referenceType_eq_choice (pointer : String) :
    api.referenceType context pointer = .named ((api.choice context).name pointer) := by
  unfold referenceType choice plainName
  dsimp only
  split
  · rw [← String.append_assoc]
  · rfl

mutual

/-- Lowering a schema makes the choices of the context in its outline. -/
theorem lower_eq_outline (schema : Schema) :
    lower api context schema
      = (api.document.outline schema).map (Outline.type (api.choice context)) := by
  match schema with
  | .reference flags pointer =>
    rw [lower, Document.outline, Option.map_some, Outline.type_withNull, referenceType_eq_choice]
    rfl
  | .composite flags kind members =>
    rw [lower, Document.outline, lowerMembers_eq_outline members, ← Outline.map_type_composed,
      Option.map_map, Option.map_map]
    exact congrArg (Option.map · _) (funext fun found => (Outline.type_withNull _ _ found).symm)
  | .enumeration _ [] _ => rfl
  | .enumeration flags (value :: values) base =>
    rw [lower, Document.outline, Option.map_some, Outline.type_withNull, Outline.type_unionOf,
      List.map_map]
    rfl
  | .array flags none =>
    rw [lower, Document.outline, Option.map_some, Outline.type_withNull]
    rfl
  | .array flags (some items) =>
    rw [lower, Document.outline, Option.map_some, Outline.type_withNull, lower_eq_outline items,
      Outline.type, Outline.type_getD]
  | .object flags [] =>
    rw [lower, Document.outline, Option.map_some, Outline.type_withNull]
    rfl
  | .object flags (property :: rest) =>
    rw [lower, Document.outline, Option.map_some, Outline.type_withNull, Outline.type,
      ← Document.slots, ← lowerProperties, lowerProperties_eq_outline (property :: rest)]
  | .primitive flags kind =>
    rw [lower, Document.outline, Option.map_some, Outline.type_withNull]
    rfl
  | .unknown _ => rfl

theorem lowerMembers_eq_outline (schemas : List Schema) :
    lowerMembers api context schemas
      = (api.document.outlineMembers schemas).map (Outline.type (api.choice context)) := by
  match schemas with
  | [] => rfl
  | schema :: rest =>
    rw [lowerMembers, Document.outlineMembers, lower_eq_outline schema,
      lowerMembers_eq_outline rest, List.map_append]
    cases api.document.outline schema <;> rfl

theorem lowerProperties_eq_outline (properties : List (Property Schema)) :
    lowerProperties api context properties
      = Outline.typeSlots (api.choice context) (api.document.slots properties) := by
  match properties with
  | [] => rfl
  | ⟨name, required, schema⟩ :: rest =>
    rw [lowerProperties, lowerProperty, Document.slots, Document.slot, Outline.typeSlots,
      lowerProperties_eq_outline rest, lower_eq_outline schema, Outline.type_getD]
    have hhides : (api.choice context).hides schema.flags = context.view.hides schema.flags := rfl
    rw [hhides]
    split <;> rfl

end

end

theorem variantSuffix_eq_varies {view : View} {access : Access} (hview : view.hidden? = some access)
    (api : Api) (pointer : String) : api.variantSuffix view pointer
      = if api.document.varies access pointer then view.suffix else "" := by
  rw [variantSuffix, hview, Document.varies]
  cases api.document.schemaAt? pointer with
  | none => rw [Option.any_none, Bool.and_false]; rfl
  | some target => rfl

/-- The full view appends nothing and hides nothing. -/
theorem choice_full (api : Api) (qualified : Bool) :
    api.choice { qualified } =
      { name := api.plainName qualified
        hides := fun _ => false
        allRequired := api.settings.requiredProperties } := by
  have hname : (fun pointer => api.plainName qualified pointer ++ api.variantSuffix .full pointer)
      = api.plainName qualified := funext fun pointer => String.append_empty
  rw [← hname]
  rfl

/-- Any other view appends its suffix to the references that mean a variant, and hides what is flagged.
-/
theorem choice_of_hidden (api : Api) (qualified : Bool) {view : View} {access : Access}
    (hview : view.hidden? = some access) :
    api.choice { qualified, view } =
      { name := fun pointer => api.plainName qualified pointer ++
          if api.document.varies access pointer then view.suffix else ""
        hides := fun flags => flags.has access
        allRequired := api.settings.requiredProperties } := by
  have hhides : view.hides = fun flags => flags.has access := by
    funext flags
    rw [View.hides, hview]
  have hname : api.variantSuffix view
      = fun pointer => if api.document.varies access pointer then view.suffix else "" :=
    funext (variantSuffix_eq_varies hview api)
  rw [choice, hhides, hname]

/-- The three views of a schema come from one outline. The full view keeps all fields and calls
references by their names. In the view of a request, the fields of properties flagged `readOnly` are
left out, and `Writable` is appended to the names of references to component schemas that hold this
flag; in that of a response the same goes for `writeOnly` and `Readable`. Fields and references of the
outline are the properties and references of the schema, in order, with their own flags. -/
theorem lower_views (api : Api) (qualified : Bool) (schema : Schema) :
    let outline := api.document.outline schema
    let name := api.plainName qualified
    let allRequired := api.settings.requiredProperties
    lower api { qualified } schema
        = outline.map (Outline.type { name, hides := fun _ => false, allRequired }) ∧
      lower api { qualified, view := .request } schema
        = outline.map (Outline.type
            { name := fun pointer =>
                name pointer ++ if api.document.varies .readOnly pointer then "Writable" else ""
              hides := Flags.readOnly
              allRequired }) ∧
      lower api { qualified, view := .response } schema
        = outline.map (Outline.type
            { name := fun pointer =>
                name pointer ++ if api.document.varies .writeOnly pointer then "Readable" else ""
              hides := Flags.writeOnly
              allRequired }) ∧
      (outline.getD .unknown).marks = schema.marks := by
  have hrequest := choice_of_hidden api qualified (rfl : View.request.hidden? = some .readOnly)
  have hresponse := choice_of_hidden api qualified (rfl : View.response.hidden? = some .writeOnly)
  refine ⟨?_, ?_, ?_, Document.marks_outline schema⟩
  · rw [lower_eq_outline, choice_full]
  · rw [lower_eq_outline, hrequest]
    rfl
  · rw [lower_eq_outline, hresponse]
    rfl

/-- A record from which every field is left out is still a member. -/
example :
    let api : Api := ⟨⟨"mem:/empty", .object []⟩, {}⟩
    let id : Schema := .primitive { readOnly := true } .integer
    let schema : Schema := .composite {} .allOf
      [.object {} [⟨"id", true, id⟩], .unknown {}, .primitive { nullable := true } .string]
    (api.lower {} schema).map TypeExpr.text = some "{ id: number } & (string | null)" ∧
      (api.lower { view := .request } schema).map TypeExpr.text = some "{} & (string | null)" := by
  decide

end Api

end OpenApi
