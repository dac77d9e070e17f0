import OpenApi.Proofs.Bundle.Progress
import OpenApi.Proofs.Schema.Blank

/-!
# Three spellings of null

An object schema admits null by `nullable`, by `x-nullable` or by a type `null` among its types. Spelled
in any of these ways, the schema that is read is the one without the spelling, made to admit null
(`ofJson_spellsNull`), and lowering adds null to its type (`lower_admittingNull`).

There are two exceptions. A reference to a schema that admits null has null already, and gets it only
once. And `x-nullable` is repeated in each member of a choice between declared types, where it adds null
to the members as well as to the choice; about these schemas nothing is said of this spelling.

Reading looks up keywords, so nothing depends on where in an object its members stand
(`parts_eq_lookup`).
-/

namespace OpenApi

/-- An object holds what another does, in any order, but for the member `name`, which has the value
`value`. -/
structure Members.IsWith (name : String) (value : Json) (members members' : Members) : Prop where
  same : ∀ other, other ≠ name → members'.lookup other = members.lookup other
  value : members'.lookup name = some value

theorem Members.isWith_set (name : String) (value : Json) (members : Members) :
    members.IsWith name value (members.set name value) where
  same other hn := by rw [lookup_set, if_neg hn]
  value := by rw [lookup_set, if_pos rfl]

/-- A keyword is looked up member by member. -/
theorem Members.lookup_cons (name keyword : String) (value : Json) (rest : Members) :
    List.lookup keyword ((name, value) :: rest)
      = if name = keyword then some value else rest.lookup keyword := by
  by_cases hn : name = keyword
  · rw [if_pos hn, hn, List.lookup_cons_self]
  · rw [if_neg hn, List.lookup_cons, beq_false_of_ne (Ne.symm hn)]

namespace Schema

/-! ## Reading by keyword -/

theorem ofArray_eq (value : Json) : ofArray value = value.asArray?.map ofItems := by
  cases value <;> rfl

/-- The schemas below an object schema are those that its keywords hold. -/
theorem parts_eq_lookup (members : Members) : parts members =
    { allOf := ((members.lookup "allOf").bind Json.asArray?).map ofItems
      oneOf := ((members.lookup "oneOf").bind Json.asArray?).map ofItems
      anyOf := ((members.lookup "anyOf").bind Json.asArray?).map ofItems
      items := (members.lookup "items").map ofJson
      properties := ((members.lookup "properties").map ofObject).getD [] } := by
  induction members with
  | nil => rfl
  | cons member rest ih =>
      obtain ⟨name, value⟩ := member
      rw [parts, ih]
      simp only [Members.lookup_cons, ofArray_eq]
      split_ifs <;> simp_all

theorem flag_eq_of_isWith {members members' : Members} {name keyword : String} {value : Json}
    (hw : members.IsWith name value members') (hne : keyword ≠ name) :
    flag keyword members' = flag keyword members := by
  rw [flag, hw.same keyword hne, flag]

/-- Only its declared types can give the object a shape. -/
structure ShapedByType (members : Members) : Prop where
  reference : (members.lookup "$ref").bind Json.asString? = none
  composition : ∀ keyword ∈ ["allOf", "oneOf", "anyOf"],
    (members.lookup keyword).bind Json.asArray? = none
  enum : (members.lookup "enum").bind Json.asArray? = none
  const : members.lookup "const" = none

/-! ## Admitting null -/

/-- The schema that admits null and is otherwise the same. -/
def admittingNull : Schema → Schema
  | reference flags pointer => reference { flags with nullable := true } pointer
  | composite flags kind members => composite { flags with nullable := true } kind members
  | enumeration flags values base => enumeration { flags with nullable := true } values base
  | object flags properties => object { flags with nullable := true } properties
  | array flags items => array { flags with nullable := true } items
  | primitive flags kind => primitive { flags with nullable := true } kind
  | unknown flags => unknown { flags with nullable := true }

/-- One object is another with a spelling of null. -/
structure SpellsNull (members members' : Members) : Prop where
  same : ∀ name, name ∉ ["type", "nullable", "x-nullable"] →
    members'.lookup name = members.lookup name
  types : valueTypes members' = valueTypes members
  admits : admitsNull members' = true

namespace SpellsNull

variable {members members' : Members} (h : SpellsNull members members')

include h

theorem flagsOf_eq : flagsOf members' = { flagsOf members with nullable := true } := by
  have hread : flag "readOnly" members' = flag "readOnly" members := by
    rw [flag, h.same "readOnly" (by decide), flag]
  have hwrite : flag "writeOnly" members' = flag "writeOnly" members := by
    rw [flag, h.same "writeOnly" (by decide), flag]
  rw [flagsOf, flagsOf, h.admits, hread, hwrite]

theorem typedShape_eq (found : Parts) (flags : Flags) (type : String) :
    typedShape members' found flags type = typedShape members found flags type := by
  have hrequired : requiredNames members' = requiredNames members := by
    rw [requiredNames, h.same "required" (by decide), requiredNames]
  rw [typedShape, typedShape, objectShape, objectShape, hrequired]

theorem shapedByType (hs : ShapedByType members) : ShapedByType members' where
  reference := by rw [h.same "$ref" (by decide), hs.reference]
  composition keyword hk := by
    rw [h.same keyword (by revert keyword; decide), hs.composition keyword hk]
  enum := by rw [h.same "enum" (by decide), hs.enum]
  const := by rw [h.same "const" (by decide), hs.const]

end SpellsNull

theorem typedShape_admittingNull (members : Members) (found : Parts) (flags : Flags)
    (type : String) :
    typedShape members found { flags with nullable := true } type
      = (typedShape members found flags type).admittingNull := by
  unfold typedShape
  split
  · rfl
  · split
    · rfl
    · split <;> rfl

/-- If null is not spelled in the members of a choice between types, the shape by type is the one
without the spelling. -/
theorem SpellsNull.shapeByType_eq {members members' : Members} (h : SpellsNull members members')
    (hx : (valueTypes members).length ≤ 1 ∨ flag "x-nullable" members' = flag "x-nullable" members)
    (found : Parts) :
    shapeByType members' found (flagsOf members')
      = (shapeByType members found (flagsOf members)).admittingNull := by
  have htyped : ∀ type, typedShape members' found (flagsOf members') type
      = (typedShape members found (flagsOf members) type).admittingNull := by
    intro type
    rw [h.typedShape_eq, h.flagsOf_eq, typedShape_admittingNull]
  have hobject : objectShape members' found (flagsOf members')
      = (objectShape members found (flagsOf members)).admittingNull := htyped "object"
  unfold shapeByType
  rw [h.types, h.same "properties" (by decide)]
  split
  · split
    · exact hobject
    · rw [h.flagsOf_eq]
      rfl
  · exact htyped _
  · next types hnil hone =>
    have hlong : 2 ≤ (valueTypes members).length := by
      match hv : valueTypes members with
      | [] => exact absurd hv hnil
      | [type] => exact absurd hv (hone type)
      | first :: second :: rest => simp
    have halternative : alternativeFlags members' = alternativeFlags members := by
      rw [alternativeFlags, alternativeFlags, h.flagsOf_eq, hx.resolve_left (by omega)]
    rw [halternative, h.flagsOf_eq, admittingNull]
    congr 1
    exact List.map_congr_left fun type _ => h.typedShape_eq found _ type

/-- A spelling of null makes the schema admit null and changes nothing else, unless it is spelled in
the members of a choice between types. -/
theorem ofJson_spellsNull {members members' : Members} (h : SpellsNull members members')
    (hx : ShapedByType members → (valueTypes members).length ≤ 1 ∨
      flag "x-nullable" members' = flag "x-nullable" members) :
    ofJson (.object members') = (ofJson (.object members)).admittingNull := by
  have hparts : parts members' = parts members := by
    rw [parts_eq_lookup, parts_eq_lookup, h.same "allOf" (by decide), h.same "oneOf" (by decide),
      h.same "anyOf" (by decide), h.same "items" (by decide), h.same "properties" (by decide)]
  rw [ofJson, ofJson, hparts, assemble, assemble, h.types, h.same "$ref" (by decide),
    h.same "enum" (by decide), h.same "const" (by decide)]
  dsimp only
  split
  · rw [h.flagsOf_eq, admittingNull]
  · next href =>
    split
    · rw [h.flagsOf_eq, admittingNull]
    · rw [h.flagsOf_eq, admittingNull]
    · rw [h.flagsOf_eq, admittingNull]
    · next hall hone hany =>
      split
      · rw [h.flagsOf_eq, admittingNull]
      · next henum =>
        split
        · rw [h.flagsOf_eq, admittingNull]
        · next hconst =>
          apply h.shapeByType_eq
          apply hx
          rw [parts_eq_lookup] at hall hone hany
          refine ⟨href, ?_, henum, hconst⟩
          rw [List.forall_mem_cons, List.forall_mem_cons, List.forall_mem_singleton]
          exact ⟨Option.map_eq_none_iff.mp hall, Option.map_eq_none_iff.mp hone,
            Option.map_eq_none_iff.mp hany⟩

theorem pointer?_typedShape (members : Members) (found : Parts) (flags : Flags) (type : String) :
    (typedShape members found flags type).pointer? = none := by
  unfold typedShape
  split
  · rfl
  · split
    · rfl
    · split <;> rfl

/-- An object schema is a reference exactly if it has a text `$ref`. -/
theorem pointer?_assemble (members : Members) (found : Parts) :
    (assemble members found).pointer? = (members.lookup "$ref").bind Json.asString? := by
  unfold assemble
  dsimp only
  split
  · next pointer href => rw [href, pointer?]
  · next href =>
    rw [href]
    split
    · rfl
    · rfl
    · rfl
    · split
      · rfl
      · split
        · rfl
        · unfold shapeByType
          split
          · split <;> rfl
          · exact pointer?_typedShape members found _ _
          · rfl

/-! ## The spellings -/

/-- What is read from a list of texts. -/
theorem strings_map_string (texts : List String) : strings (texts.map .string) = texts := by
  induction texts with
  | nil => rfl
  | cons text rest ih =>
      rw [List.map_cons, strings, List.filterMap_cons]
      exact congrArg (text :: ·) ih

theorem declaredTypes_of_list {members : Members} {types : List String}
    (h : members.lookup "type" = some (.array (types.map .string))) :
    declaredTypes members = types := by
  rw [declaredTypes, h]
  exact strings_map_string types

/-- The names that declare a type with a shape of its own. -/
def shapedTypes : List String := ["array", "object", "string", "number", "integer", "boolean"]

theorem typedShape_of_notMem {type : String} (ht : type ∉ shapedTypes) (members : Members)
    (found : Parts) (flags : Flags) : typedShape members found flags type = .unknown flags := by
  simp only [shapedTypes, List.mem_cons, List.not_mem_nil, or_false, not_or] at ht
  obtain ⟨harray, hobject, hstring, hnumber, hinteger, hboolean⟩ := ht
  rw [typedShape, if_neg harray, if_neg hobject, Primitive.ofName?, if_neg hstring, if_neg hnumber,
    if_neg hinteger, if_neg hboolean]

/-- An object schema stands for a choice between its declared types, at least one of which has a
shape. -/
structure IsTypeChoice (members : Members) (types : List String) : Prop where
  shaped : ShapedByType members
  several : 2 ≤ types.length
  known : ∃ type ∈ types, type ∈ shapedTypes

/-- Where only the declared types can give a shape, they do. -/
theorem ofJson_of_shapedByType {members : Members} (h : ShapedByType members) :
    ofJson (.object members) = shapeByType members (parts members) (flagsOf members) := by
  have hall := h.composition "allOf" (by decide)
  have hone := h.composition "oneOf" (by decide)
  have hany := h.composition "anyOf" (by decide)
  rw [ofJson, assemble, h.reference, h.enum, h.const, parts_eq_lookup, hall, hone, hany]
  rfl

/-- Either flag spells null. -/
theorem SpellsNull.of_flag {members members' : Members} {keyword : String}
    (hk : keyword = "nullable" ∨ keyword = "x-nullable")
    (hw : members.IsWith keyword (.bool true) members') : SpellsNull members members' where
  same name hn := by
    apply hw.same
    rintro rfl
    rcases hk with rfl | rfl <;> exact hn (by decide)
  types := by
    have hne : "type" ≠ keyword := by
      rcases hk with rfl | rfl <;> decide
    rw [valueTypes, declaredTypes, hw.same "type" hne, valueTypes, declaredTypes]
  admits := by
    have hflag : flag keyword members' = true := by
      rw [flag, hw.value]
      rfl
    rw [admitsNull]
    rcases hk with rfl | rfl
    · rw [hflag, Bool.true_or, Bool.true_or]
    · rw [hflag, Bool.or_true, Bool.true_or]

/-- An object schema lists its types and does not spell null in any way. -/
structure LacksNull (members : Members) (types : List String) : Prop where
  listed : members.lookup "type" = some (.array (types.map .string))
  notMem : "null" ∉ types
  nullable : members.lookup "nullable" = none
  extension : members.lookup "x-nullable" = none

namespace LacksNull

variable {members members' : Members} {types : List String} (h : LacksNull members types)

include h

theorem valueTypes_eq : valueTypes members = types := by
  rw [valueTypes, declaredTypes_of_list h.listed, List.filter_eq_self]
  intro type ht
  rw [decide_eq_true_iff]
  rintro rfl
  exact h.notMem ht

theorem admitsNull_eq : admitsNull members = false := by
  have hnull : types.contains "null" = false := by simpa using h.notMem
  rw [admitsNull, declaredTypes_of_list h.listed, flag, flag, h.nullable, h.extension, hnull]
  rfl

/-- The type `null` spells null, and is no type of a value. -/
theorem spellsNull_type
    (hw : members.IsWith "type" (.array ((types ++ ["null"]).map .string)) members') :
    SpellsNull members members' where
  same name hn := by
    apply hw.same
    rintro rfl
    exact hn (by decide)
  types := by
    rw [valueTypes, valueTypes, declaredTypes_of_list hw.value, declaredTypes_of_list h.listed,
      List.filter_append]
    exact List.append_nil _
  admits := by
    rw [admitsNull, declaredTypes_of_list hw.value]
    simp

end LacksNull

end Schema

/-! ## Lowering -/

namespace Api

open Schema

variable (api : Api) (context : Context)

/-- To make a schema admit null is to add null to its type, except where the type has null already
since the target of the reference admits it. -/
theorem lower_admittingNull {schema : Schema} (h : schema.flags.nullable = false) :
    lower api context schema.admittingNull =
      if schema.pointer?.any api.targetAdmitsNull then lower api context schema
      else (lower api context schema).map .orNull := by
  match schema, h with
  | .reference ⟨_, _, _⟩ pointer, rfl =>
    rw [admittingNull, lower, lower, pointer?, Option.any_some]
    cases api.targetAdmitsNull pointer <;> rfl
  | .composite ⟨_, _, _⟩ kind members, rfl =>
    rw [admittingNull, lower, lower, Option.map_map]
    rfl
  | .enumeration ⟨_, _, _⟩ [] _, rfl => rfl
  | .enumeration ⟨_, _, _⟩ (_ :: _) _, rfl => rfl
  | .object ⟨_, _, _⟩ [], rfl => rfl
  | .object ⟨_, _, _⟩ (_ :: _), rfl => rfl
  | .array ⟨_, _, _⟩ none, rfl => rfl
  | .array ⟨_, _, _⟩ (some _), rfl => rfl
  | .primitive ⟨_, _, _⟩ _, rfl => rfl
  | .unknown _, _ => rfl

/-- A choice between types none of which has a shape has no type. -/
theorem lower_ofJson_eq_none {members : Members} (hs : ShapedByType members)
    (hseveral : 2 ≤ (valueTypes members).length)
    (hnone : ∀ type ∈ valueTypes members, type ∉ shapedTypes) :
    lower api context (ofJson (.object members)) = none := by
  have hmembers : ∀ types : List String, (∀ type ∈ types, type ∉ shapedTypes) →
      lowerMembers api context
        (types.map (typedShape members (parts members) (alternativeFlags members))) = [] := by
    intro types ht
    induction types with
    | nil => rfl
    | cons type rest ih =>
        rw [List.forall_mem_cons] at ht
        rw [List.map_cons, typedShape_of_notMem ht.1, lowerMembers, ih ht.2]
        rfl
  rw [ofJson_of_shapedByType hs]
  match hv : valueTypes members with
  | [] => rw [hv] at hseveral; simp at hseveral
  | [type] => rw [hv] at hseveral; simp at hseveral
  | first :: second :: rest =>
    rw [hv] at hnone
    rw [shapeByType, hv, lower, hmembers _ hnone]
    rfl

section

variable {members members' : Members} {types : List String}

/-- Where null is not spelled in the members of a choice, the type with a spelling is the one without it
and null, or the same if that has null already. -/
theorem lower_of_spellsNull (h : LacksNull members types) (hm : SpellsNull members members')
    (hx : ShapedByType members → (valueTypes members).length ≤ 1 ∨
      flag "x-nullable" members' = flag "x-nullable" members) :
    lower api context (ofJson (.object members')) =
      if ((members.lookup "$ref").bind Json.asString?).any api.targetAdmitsNull then
        lower api context (ofJson (.object members))
      else (lower api context (ofJson (.object members))).map .orNull := by
  have hflags : (ofJson (.object members)).flags.nullable = false := by
    rw [ofJson, flags_assemble, flagsOf]
    exact h.admitsNull_eq
  rw [ofJson_spellsNull hm hx, lower_admittingNull api context hflags, ofJson, pointer?_assemble]

/-- A choice between several types none of which has a shape has no type, with a spelling of null or
without. -/
theorem lower_eq_none_of_spellsNull (hm : SpellsNull members members') (hs : ShapedByType members)
    (hseveral : 2 ≤ (valueTypes members).length)
    (hnone : ∀ type ∈ valueTypes members, type ∉ shapedTypes) :
    lower api context (ofJson (.object members)) = none ∧
      lower api context (ofJson (.object members')) = none := by
  refine ⟨lower_ofJson_eq_none api context hs hseveral hnone, ?_⟩
  rw [← hm.types] at hseveral hnone
  exact lower_ofJson_eq_none api context (hm.shapedByType hs) hseveral hnone

end

/-- The three spellings of null give one type. Take an object schema that lists its types, `null` not
among them, and has no member `nullable` or `x-nullable`. With `nullable` it has the type it has without
and null, or none if it has none without; likewise with the type `null` put at the end of its list, and
with `x-nullable` if it is no choice between several declared types. Only where the schema refers to one
that admits null, its type has null in any case, and is the same with any of the spellings as without. -/
theorem lower_spellings {members : Members} {types : List String} (h : LacksNull members types) :
    let lowered := fun members => lower api context (ofJson (.object members))
    let pointer := (members.lookup "$ref").bind Json.asString?
    let expected := if pointer.any api.targetAdmitsNull then lowered members
      else (lowered members).map .orNull
    (∀ members', members.IsWith "nullable" (.bool true) members' → lowered members' = expected) ∧
      (∀ members', members.IsWith "type" (.array ((types ++ ["null"]).map .string)) members' →
        lowered members' = expected) ∧
      (¬IsTypeChoice members types →
        ∀ members', members.IsWith "x-nullable" (.bool true) members' →
          lowered members' = expected) := by
  intro lowered pointer expected
  refine ⟨?_, ?_, ?_⟩
  · intro members' hw
    apply lower_of_spellsNull api context h (.of_flag (.inl rfl) hw)
    intro _
    exact .inr (flag_eq_of_isWith hw (by decide))
  · intro members' hw
    apply lower_of_spellsNull api context h (h.spellsNull_type hw)
    intro _
    exact .inr (flag_eq_of_isWith hw (by decide))
  · intro hchoice members' hw
    have hm : SpellsNull members members' := .of_flag (.inr rfl) hw
    have htypes := h.valueTypes_eq
    by_cases hs : ShapedByType members ∧ 2 ≤ types.length
    · -- a choice, but none of its types has a shape: no type with the spelling and none without
      have hnone : ∀ type ∈ valueTypes members, type ∉ shapedTypes := by
        rw [htypes]
        intro type ht hk
        exact hchoice ⟨hs.1, hs.2, type, ht, hk⟩
      obtain ⟨hwithout, hwith⟩ :=
        lower_eq_none_of_spellsNull api context hm hs.1 (by rw [htypes]; exact hs.2) hnone
      show lower api context _ = if pointer.any api.targetAdmitsNull then lower api context _
        else (lower api context _).map .orNull
      rw [hwith, hwithout, Option.map_none, ite_self]
    · apply lower_of_spellsNull api context h hm
      intro hshaped
      have hshort : ¬2 ≤ types.length := fun hlong => hs ⟨hshaped, hlong⟩
      rw [htypes]
      exact .inl (by omega)

/-- An enumeration that lists two types is no choice between them, and null is spelled in all three ways
to the same end. -/
theorem lower_spellings_enumeration :
    let members : Members :=
      [("type", .array [.string "string", .string "integer"]),
        ("enum", .array [.string "a", .number (.integer 1)])]
    let lowered := fun members =>
      lower ⟨⟨"mem:/empty", .object []⟩, {}⟩ {} (ofJson (.object members))
    LacksNull members ["string", "integer"] ∧ ¬IsTypeChoice members ["string", "integer"] ∧
      lowered members = some (.union [.literal "a", .literal "1"]) ∧
      lowered (members.set "nullable" (.bool true)) = (lowered members).map .orNull ∧
      lowered (members.set "type" (.array [.string "string", .string "integer", .string "null"]))
        = (lowered members).map .orNull ∧
      lowered (members.set "x-nullable" (.bool true)) = (lowered members).map .orNull := by
  intro members lowered
  have hlacks : LacksNull members ["string", "integer"] := ⟨rfl, by decide, rfl, rfl⟩
  have hchoice : ¬IsTypeChoice members ["string", "integer"] := by
    intro h
    cases h.shaped.enum
  obtain ⟨hflag, htype, hextension⟩ :=
    lower_spellings ⟨⟨"mem:/empty", .object []⟩, {}⟩ {} hlacks
  exact ⟨hlacks, hchoice, rfl, hflag _ (members.isWith_set _ _), htype _ (members.isWith_set _ _),
    hextension hchoice _ (members.isWith_set _ _)⟩

/-- A document whose component schema `N` admits null. -/
def admittingRoot : Json :=
  .object [("openapi", .string "3.0.0"), ("components", .object [("schemas", .object
    [("N", .object [("type", .string "string"), ("nullable", .bool true)])])])]

/-- A reference to a schema that admits null gets null once, not once more for a spelling beside it. And
`x-nullable` beside two types gives null three times, once for each type and once for both. -/
theorem not_spelled_alike :
    let document : Document := ⟨"mem:/doc", admittingRoot⟩
    let lowered := fun members => lower ⟨document, {}⟩ {} (ofJson (.object members))
    let link : Members :=
      [("$ref", .string "#/components/schemas/N"), ("type", .array [.string "string"])]
    let choice : Members := [("type", .array [.string "string", .string "integer"])]
    Document.ofTree "mem:/doc" admittingRoot = .ok document ∧
      (LacksNull link ["string"] ∧
        lowered (link.set "nullable" (.bool true)) = some (.union [.named "N", .null]) ∧
        (lowered link).map TypeExpr.orNull = some (.union [.named "N", .null, .null]) ∧
        lowered (link.set "nullable" (.bool true)) ≠ (lowered link).map .orNull) ∧
      LacksNull choice ["string", "integer"] ∧
      lowered (choice.set "nullable" (.bool true))
        = some (.union [.primitive .string, .primitive .integer, .null]) ∧
      lowered (choice.set "x-nullable" (.bool true))
        = some (.union [.primitive .string, .null, .primitive .integer, .null, .null]) ∧
      lowered (choice.set "x-nullable" (.bool true)) ≠ (lowered choice).map .orNull := by
  intro document lowered link choice
  have hlink : lowered (link.set "nullable" (.bool true)) = some (.union [.named "N", .null]) := rfl
  have htwice : (lowered link).map TypeExpr.orNull = some (.union [.named "N", .null, .null]) :=
    rfl
  have hchoice : lowered (choice.set "x-nullable" (.bool true))
      = some (.union [.primitive .string, .null, .primitive .integer, .null, .null]) := rfl
  have honce : (lowered choice).map TypeExpr.orNull
      = some (.union [.primitive .string, .primitive .integer, .null]) := rfl
  refine ⟨rfl, ⟨⟨rfl, by decide, rfl, rfl⟩, hlink, htwice, ?_⟩, ⟨rfl, by decide, rfl, rfl⟩, rfl,
    hchoice, ?_⟩
  · rw [hlink, htwice]
    simp
  · rw [hchoice, honce]
    simp

end Api

end OpenApi
