import Mathlib.Data.List.Basic
import Mathlib.Logic.Function.Iterate
import OpenApi.Proofs.Schema.Nullability

/-!
# Keywords and annotations

Reading a schema looks up fourteen keywords of an object and reads the schemas that five of them hold.
Other members are annotations. `core` leaves them out wherever a schema is read and puts the keywords in
one order. A schema is read the same from its core (`ofJson_core`), and two values of one core are one
schema.

An object that only lists several types is the choice between edited copies of itself, each with one of
the types and without `nullable`. A copy is no part of the object, so this equation
(`ofJson_of_several`) is no recursion on the value. It is one on its size: a type is smaller than the
list that it is taken from. Reading step by step, where a step may use what a smaller value is read as
and may edit the object, therefore comes to an end and arrives at the same schema
(`iterate_readStep`).
-/

namespace OpenApi

/-! ## Members by name -/

namespace Members

/-- The members of the given names, in the order of the names. -/
def select (names : List String) (members : Members) : Members :=
  names.filterMap fun name => (members.lookup name).map (name, ·)

theorem lookup_select (names : List String) (name : String) (members : Members) :
    (members.select names).lookup name = if name ∈ names then members.lookup name else none := by
  induction names with
  | nil => rfl
  | cons first rest ih =>
      rw [select, List.filterMap_cons]
      by_cases hn : first = name
      · subst hn
        rw [if_pos List.mem_cons_self]
        cases hl : members.lookup first with
        | some value => exact List.lookup_cons_self
        | none =>
            -- the name may be given again, and is not found there either
            rw [hl, ite_self] at ih
            exact ih
      · simp only [List.mem_cons, Ne.symm hn, false_or]
        cases members.lookup first with
        | some value =>
            rw [Option.map_some, lookup_cons, if_neg hn]
            exact ih
        | none => exact ih

/-- A copy of an object schema with one type alone, and without `nullable`, which belongs to the
whole. -/
def withType (type : String) (members : Members) : Members :=
  (members.set "type" (.string type)).filter (·.1 ≠ "nullable")

theorem lookup_filter_ne (removed name : String) (members : Members) :
    List.lookup name (members.filter (·.1 ≠ removed)) =
      if name = removed then none else members.lookup name := by
  induction members with
  | nil => rw [List.filter_nil, List.lookup_nil, ite_self]
  | cons member rest ih =>
      obtain ⟨key, value⟩ := member
      rw [lookup_cons]
      by_cases hk : key = removed
      · rw [List.filter_cons_of_neg (by simpa using hk), ih]
        split_ifs with hn hkey
        · rfl
        · exact absurd (hkey.symm.trans hk) hn
        · rfl
      · rw [List.filter_cons_of_pos (by simpa using hk), lookup_cons, ih]
        split_ifs with hkey hn
        · exact absurd (hkey.trans hn) hk
        · rfl
        · rfl
        · rfl

theorem lookup_withType (type name : String) (members : Members) :
    (members.withType type).lookup name =
      if name = "nullable" then none
      else if name = "type" then some (.string type)
      else members.lookup name := by
  rw [withType, lookup_filter_ne, lookup_set]

end Members

namespace Schema

/-! ## The core of a schema -/

/-- The keywords that reading looks up. -/
def keywords : List String :=
  ["$ref", "allOf", "oneOf", "anyOf", "enum", "const", "type", "items", "properties", "required",
    "nullable", "x-nullable", "readOnly", "writeOnly"]

/-- The keywords that hold schemas. -/
def holders : List String := ["allOf", "oneOf", "anyOf", "items", "properties"]

mutual

/-- A schema without annotations, its keywords in one order; likewise the schemas below it. -/
def core : Json → Json
  | .object members => .object (Members.select keywords (coreMembers members))
  | value => value

/-- The members of an object, with the cores of the schemas that they hold. -/
def coreMembers : List (String × Json) → List (String × Json)
  | [] => []
  | (name, value) :: rest =>
    let value' :=
      if name = "allOf" then coreArray value
      else if name = "oneOf" then coreArray value
      else if name = "anyOf" then coreArray value
      else if name = "items" then core value
      else if name = "properties" then coreObject value
      else value
    (name, value') :: coreMembers rest

/-- An array of schemas, by their cores. -/
def coreArray : Json → Json
  | .array items => .array (coreItems items)
  | value => value

/-- The cores of a list of schemas. -/
def coreItems : List Json → List Json
  | [] => []
  | item :: rest => core item :: coreItems rest

/-- An object of named schemas, by their cores. -/
def coreObject : Json → Json
  | .object members => .object (coreEntries members)
  | value => value

/-- The cores of a list of named schemas. -/
def coreEntries : List (String × Json) → List (String × Json)
  | [] => []
  | (name, value) :: rest => (name, core value) :: coreEntries rest

end

/-- What the core of an object has as the member `name`. -/
def coreMember (name : String) (value : Json) : Json :=
  if name = "allOf" then coreArray value
  else if name = "oneOf" then coreArray value
  else if name = "anyOf" then coreArray value
  else if name = "items" then core value
  else if name = "properties" then coreObject value
  else value

/-- What holds no schema stands as it is. -/
theorem coreMember_of_notMem {name : String} (hn : name ∉ holders) : coreMember name = id := by
  simp only [holders, List.mem_cons, List.not_mem_nil, or_false, not_or] at hn
  obtain ⟨hall, hone, hany, hitems, hproperties⟩ := hn
  funext value
  rw [coreMember, if_neg hall, if_neg hone, if_neg hany, if_neg hitems, if_neg hproperties, id]

theorem lookup_coreMembers (name : String) (members : Members) :
    (coreMembers members).lookup name = (members.lookup name).map (coreMember name) := by
  induction members with
  | nil => rfl
  | cons member rest ih =>
      obtain ⟨key, value⟩ := member
      rw [coreMembers, Members.lookup_cons, Members.lookup_cons, ih]
      by_cases hk : key = name
      · subst hk
        rw [if_pos rfl, if_pos rfl]
        rfl
      · rw [if_neg hk, if_neg hk]

theorem lookup_select_coreMembers {name : String} (hk : name ∈ keywords) (hn : name ∉ holders)
    (members : Members) :
    (Members.select keywords (coreMembers members)).lookup name = members.lookup name := by
  rw [Members.lookup_select, if_pos hk, lookup_coreMembers, coreMember_of_notMem hn, Option.map_id_fun,
    id]

/-- An object has the keywords of its core, but for the schemas that they hold. -/
theorem sameKeywords_core (members : Members) :
    SameKeywords (Members.select keywords (coreMembers members)) members where
  flag name hn := by
    have hk : name ∈ keywords := by revert name; decide
    have hh : name ∉ holders := by revert name; decide
    rw [flag, lookup_select_coreMembers hk hh, flag]
  types := by
    rw [declaredTypes, lookup_select_coreMembers (by decide) (by decide), declaredTypes]
  required := by
    rw [requiredNames, lookup_select_coreMembers (by decide) (by decide), requiredNames]
  reference := by rw [lookup_select_coreMembers (by decide) (by decide)]
  enum := by rw [lookup_select_coreMembers (by decide) (by decide)]
  const := lookup_select_coreMembers (by decide) (by decide) members
  properties := by
    rw [Members.lookup_select, if_pos (by decide), lookup_coreMembers, Option.isSome_map]

/-- The schemas below an object are found by keyword, so the keywords suffice. -/
theorem parts_select (members : Members) : parts (members.select keywords) = parts members := by
  have hlookup : ∀ name ∈ keywords, (members.select keywords).lookup name = members.lookup name := by
    intro name hn
    rw [Members.lookup_select, if_pos hn]
  rw [parts_eq_lookup, parts_eq_lookup members, hlookup "allOf" (by decide),
    hlookup "oneOf" (by decide), hlookup "anyOf" (by decide), hlookup "items" (by decide),
    hlookup "properties" (by decide)]

mutual

/-- A schema is read from its core. -/
theorem ofJson_core (value : Json) : ofJson (core value) = ofJson value := by
  match value with
  | .object members =>
    rw [core, ofJson, ofJson, parts_select, parts_coreMembers members,
      (sameKeywords_core members).assemble]
  | .null | .bool _ | .number _ | .string _ | .array _ => rw [core]; simp

theorem parts_coreMembers (members : List (String × Json)) :
    parts (coreMembers members) = parts members := by
  match members with
  | [] => rfl
  | (name, value) :: rest =>
    rw [coreMembers, parts, parts, parts_coreMembers rest]
    split_ifs
    · rw [ofArray_coreArray value]
    · rw [ofArray_coreArray value]
    · rw [ofArray_coreArray value]
    · rw [ofJson_core value]
    · rw [ofObject_coreObject value]
    · rfl

theorem ofArray_coreArray (value : Json) : ofArray (coreArray value) = ofArray value := by
  match value with
  | .array items => rw [coreArray, ofArray, ofArray, ofItems_coreItems items]
  | .null | .bool _ | .number _ | .string _ | .object _ => rfl

theorem ofItems_coreItems (items : List Json) : ofItems (coreItems items) = ofItems items := by
  match items with
  | [] => rfl
  | item :: rest => rw [coreItems, ofItems, ofItems, ofJson_core item, ofItems_coreItems rest]

theorem ofObject_coreObject (value : Json) : ofObject (coreObject value) = ofObject value := by
  match value with
  | .object members => rw [coreObject, ofObject, ofObject, ofMembers_coreEntries members]
  | .null | .bool _ | .number _ | .string _ | .array _ => rfl

theorem ofMembers_coreEntries (members : List (String × Json)) :
    ofMembers (coreEntries members) = ofMembers members := by
  match members with
  | [] => rfl
  | (name, value) :: rest =>
    rw [coreEntries, ofMembers, ofMembers, ofJson_core value, ofMembers_coreEntries rest]

end

/-- Values of one core are one schema. -/
theorem ofJson_eq_of_core_eq {value value' : Json} (h : core value = core value') :
    ofJson value = ofJson value' := by
  rw [← ofJson_core value, h, ofJson_core]

/-! ## Several types -/

section

variable {members : Members}

theorem lookup_withType_of_ne {name : String} (hn : name ∉ ["type", "nullable"]) (type : String) :
    (members.withType type).lookup name = members.lookup name := by
  rw [List.mem_cons, List.mem_singleton, not_or] at hn
  rw [Members.lookup_withType, if_neg hn.2, if_neg hn.1]

theorem ShapedByType.withType (h : ShapedByType members) (type : String) :
    ShapedByType (members.withType type) where
  reference := by rw [lookup_withType_of_ne (by decide), h.reference]
  composition keyword hk := by
    rw [lookup_withType_of_ne (by revert keyword; decide), h.composition keyword hk]
  enum := by rw [lookup_withType_of_ne (by decide), h.enum]
  const := by rw [lookup_withType_of_ne (by decide), h.const]

theorem declaredTypes_withType (type : String) :
    declaredTypes (members.withType type) = [type] := by
  rw [declaredTypes, Members.lookup_withType]
  rfl

theorem parts_withType (type : String) : parts (members.withType type) = parts members := by
  rw [parts_eq_lookup, parts_eq_lookup, lookup_withType_of_ne (by decide),
    lookup_withType_of_ne (by decide), lookup_withType_of_ne (by decide),
    lookup_withType_of_ne (by decide), lookup_withType_of_ne (by decide)]

theorem ne_null_of_mem_valueTypes {type : String} (h : type ∈ valueTypes members) :
    type ≠ "null" := of_decide_eq_true (List.mem_filter.mp h).2

/-- Of the flags, a copy with one type keeps all but the null that belongs to the whole. -/
theorem flagsOf_withType {type : String} (ht : type ≠ "null") :
    flagsOf (members.withType type) = alternativeFlags members := by
  have hnull : flag "nullable" (members.withType type) = false := by
    rw [flag, Members.lookup_withType]
    rfl
  have hother : ∀ name, name ∉ ["type", "nullable"] →
      flag name (members.withType type) = flag name members := by
    intro name hn
    rw [flag, lookup_withType_of_ne hn, flag]
  have hadmits : admitsNull (members.withType type) = flag "x-nullable" members := by
    have hdeclared : [type].contains "null" = false := by simpa using ht.symm
    rw [admitsNull, hnull, hother "x-nullable" (by decide), declaredTypes_withType, hdeclared,
      Bool.false_or, Bool.or_false]
  rw [flagsOf, alternativeFlags, flagsOf, hadmits, hother "readOnly" (by decide),
    hother "writeOnly" (by decide)]

/-- A copy with one of the types is read as the shape that the type gives. -/
theorem ofJson_withType (h : ShapedByType members) {type : String}
    (ht : type ∈ valueTypes members) : ofJson (.object (members.withType type))
      = typedShape members (parts members) (alternativeFlags members) type := by
  have hne := ne_null_of_mem_valueTypes ht
  have htypes : valueTypes (members.withType type) = [type] := by
    rw [valueTypes, declaredTypes_withType]
    simpa using hne
  have hrequired : requiredNames (members.withType type) = requiredNames members := by
    rw [requiredNames, lookup_withType_of_ne (by decide), requiredNames]
  rw [ofJson_of_shapedByType (h.withType type), shapeByType, htypes, parts_withType,
    flagsOf_withType hne]
  show typedShape (members.withType type) _ _ type = _
  rw [typedShape, typedShape, objectShape, objectShape, hrequired]

/-- An object that only lists several types is the choice between its copies with one of them. -/
theorem ofJson_of_several (h : ShapedByType members) (hlong : 2 ≤ (valueTypes members).length) :
    ofJson (.object members) = .composite (flagsOf members) .anyOf
      ((valueTypes members).map fun type => ofJson (.object (members.withType type))) := by
  rw [ofJson_of_shapedByType h, List.map_congr_left fun type ht => ofJson_withType h ht]
  match hv : valueTypes members with
  | [] => rw [hv] at hlong; simp at hlong
  | [type] => rw [hv] at hlong; simp at hlong
  | first :: second :: rest => rw [shapeByType, hv]

end

/-! ## Reading step by step -/

theorem ofItems_eq_map (items : List Json) : ofItems items = items.map ofJson := by
  induction items with
  | nil => rfl
  | cons item rest ih => rw [ofItems, List.map_cons, ih]

theorem ofMembers_eq_map (members : List (String × Json)) :
    ofMembers members = members.map fun (name, value) => (name, ofJson value) := by
  induction members with
  | nil => rfl
  | cons member rest ih => rw [ofMembers, List.map_cons, ih]

/-- The schemas below an object, by reading the values that its keywords hold. -/
def partsBy (read : Json → Schema) (members : Members) : Parts where
  allOf := ((members.lookup "allOf").bind Json.asArray?).map (List.map read)
  oneOf := ((members.lookup "oneOf").bind Json.asArray?).map (List.map read)
  anyOf := ((members.lookup "anyOf").bind Json.asArray?).map (List.map read)
  items := (members.lookup "items").map read
  properties := (((members.lookup "properties").bind Json.asObject?).getD []).map
    fun entry => (entry.1, read entry.2)

theorem parts_eq_partsBy (members : Members) : parts members = partsBy ofJson members := by
  have hitems : ofItems = List.map ofJson := funext ofItems_eq_map
  have hproperties : ((members.lookup "properties").map ofObject).getD []
      = (((members.lookup "properties").bind Json.asObject?).getD []).map
        fun entry => (entry.1, ofJson entry.2) := by
    rcases members.lookup "properties" with _ | (_ | _ | _ | _ | _ | entries)
    case some.object => exact ofMembers_eq_map entries
    all_goals rfl
  rw [parts_eq_lookup, partsBy, hitems, hproperties]

instance (members : Members) : Decidable (ShapedByType members) :=
  decidable_of_iff
    ((members.lookup "$ref").bind Json.asString? = none ∧
      (∀ keyword ∈ ["allOf", "oneOf", "anyOf"],
        (members.lookup keyword).bind Json.asArray? = none) ∧
      (members.lookup "enum").bind Json.asArray? = none ∧ members.lookup "const" = none)
    ⟨fun ⟨hreference, hcomposition, henum, hconst⟩ => ⟨hreference, hcomposition, henum, hconst⟩,
      fun ⟨hreference, hcomposition, henum, hconst⟩ => ⟨hreference, hcomposition, henum, hconst⟩⟩

/-- One step of reading: what the values below are, and what edited copies of an object are, is left
to `read`. -/
def readStep (read : Json → Schema) : Json → Schema
  | .object (members : Members) =>
    if ShapedByType members ∧ 2 ≤ (valueTypes members).length then
      .composite (flagsOf members) .anyOf
        ((valueTypes members).map fun type => read (.object (members.withType type)))
    else assemble members (partsBy read members)
  | _ => .unknown {}

/-- A step of reading leads to itself. -/
theorem readStep_ofJson (value : Json) : readStep ofJson value = ofJson value := by
  match value with
  | .object members =>
    rw [readStep]
    split_ifs with h
    · rw [ofJson_of_several h.1 h.2]
    · rw [ofJson, parts_eq_partsBy]
  | .null | .bool _ | .number _ | .string _ | .array _ => rfl

/-! ## Smaller values -/

section

variable {members : Members}

theorem sizeOf_lt_of_mem {name : String} {value : Json} (h : (name, value) ∈ members) :
    sizeOf value < sizeOf (Json.object members) := by
  have hlt := List.sizeOf_lt_of_mem h
  simp only [Json.object.sizeOf_spec, Prod.mk.sizeOf_spec] at hlt ⊢
  omega

theorem sizeOf_set_lt {name : String} {value old : Json} (hl : members.lookup name = some old)
    (hlt : sizeOf value < sizeOf old) : sizeOf (members.set name value) < sizeOf members := by
  induction members with
  | nil => cases hl
  | cons member rest ih =>
      obtain ⟨key, found⟩ := member
      rw [Members.lookup_cons] at hl
      rw [Members.set]
      split_ifs at hl ⊢
      · cases hl
        simp only [List.cons.sizeOf_spec, Prod.mk.sizeOf_spec]
        omega
      · have hrest := ih hl
        simp only [List.cons.sizeOf_spec]
        omega

theorem sizeOf_filter_le (keep : String × Json → Bool) (members : Members) :
    sizeOf (members.filter keep) ≤ sizeOf members := by
  induction members with
  | nil => exact Nat.le_refl _
  | cons member rest ih =>
      rw [List.filter_cons]
      split_ifs
      · simp only [List.cons.sizeOf_spec]
        omega
      · simp only [List.cons.sizeOf_spec]
        omega

/-- Several types stand in an array. -/
theorem exists_array_of_several (h : 2 ≤ (valueTypes members).length) :
    ∃ items, members.lookup "type" = some (.array items) ∧
      ∀ type ∈ valueTypes members, .string type ∈ items := by
  have hlong : 2 ≤ (declaredTypes members).length := Nat.le_trans h (List.length_filter_le _ _)
  have hsub : ∀ type ∈ valueTypes members, type ∈ declaredTypes members := by
    intro type ht
    exact (List.mem_filter.mp ht).1
  rw [declaredTypes] at hlong
  simp only [declaredTypes] at hsub
  split at hlong
  · simp at hlong
  · next items hl =>
    refine ⟨items, hl, ?_⟩
    intro type ht
    have hm := hsub type ht
    rw [hl] at hm
    obtain ⟨item, hi, htext⟩ := List.mem_filterMap.mp hm
    cases item with
    | string text => cases htext; exact hi
    | _ => cases htext
  · simp at hlong

/-- A copy with one of several types is smaller, as a type is smaller than the list of types. -/
theorem sizeOf_withType_lt (h : 2 ≤ (valueTypes members).length) {type : String}
    (ht : type ∈ valueTypes members) :
    sizeOf (Json.object (members.withType type)) < sizeOf (Json.object members) := by
  obtain ⟨items, hl, hitems⟩ := exists_array_of_several h
  have hitem : sizeOf (Json.string type) < sizeOf (Json.array items) := by
    have hlt := List.sizeOf_lt_of_mem (hitems type ht)
    rw [Json.array.sizeOf_spec]
    omega
  have hset := sizeOf_set_lt hl hitem
  have hfilter := sizeOf_filter_le (·.1 ≠ "nullable") (members.set "type" (.string type))
  rw [Json.object.sizeOf_spec, Json.object.sizeOf_spec, Members.withType]
  omega

theorem sizeOf_lt_of_mem_array {keyword : String} {items : List Json}
    (h : (members.lookup keyword).bind Json.asArray? = some items) {item : Json}
    (hi : item ∈ items) : sizeOf item < sizeOf (Json.object members) := by
  rw [Option.bind_eq_some_iff] at h
  obtain ⟨value, hl, harray⟩ := h
  cases value with
  | array found =>
      cases harray
      have hvalue := sizeOf_lt_of_mem (mem_of_lookup hl)
      have hitem := List.sizeOf_lt_of_mem hi
      rw [Json.array.sizeOf_spec] at hvalue
      omega
  | _ => cases harray

theorem sizeOf_lt_of_mem_object {keyword : String} {entries : Members}
    (h : (members.lookup keyword).bind Json.asObject? = some entries) {entry : String × Json}
    (he : entry ∈ entries) : sizeOf entry.2 < sizeOf (Json.object members) := by
  rw [Option.bind_eq_some_iff] at h
  obtain ⟨value, hl, hobject⟩ := h
  cases value with
  | object found =>
      cases hobject
      exact Nat.lt_trans (sizeOf_lt_of_mem he) (sizeOf_lt_of_mem (mem_of_lookup hl))
  | _ => cases hobject

end

/-! ## Steps to a depth -/

section

variable {read read' : Json → Schema}

theorem partsBy_congr {members : Members}
    (h : ∀ below, sizeOf below < sizeOf (Json.object members) → read below = read' below) :
    partsBy read members = partsBy read' members := by
  have hitems : (members.lookup "items").map read = (members.lookup "items").map read' := by
    apply Option.map_congr
    intro value hl
    exact h value (sizeOf_lt_of_mem (mem_of_lookup hl))
  have harray : ∀ keyword, ((members.lookup keyword).bind Json.asArray?).map (List.map read)
      = ((members.lookup keyword).bind Json.asArray?).map (List.map read') := by
    intro keyword
    apply Option.map_congr
    intro items hl
    apply List.map_congr_left
    intro item hi
    exact h item (sizeOf_lt_of_mem_array hl hi)
  rw [partsBy, partsBy, harray, harray, harray, hitems]
  congr 1
  apply List.map_congr_left
  intro entry hm
  cases hl : (members.lookup "properties").bind Json.asObject? with
  | none => rw [hl] at hm; cases hm
  | some entries =>
      rw [hl] at hm
      rw [h entry.2 (sizeOf_lt_of_mem_object hl hm)]

/-- A step asks only what smaller values are. -/
theorem readStep_congr {value : Json}
    (h : ∀ below, sizeOf below < sizeOf value → read below = read' below) :
    readStep read value = readStep read' value := by
  match value with
  | .object members =>
    rw [readStep, readStep]
    split_ifs with hseveral
    · congr 1
      apply List.map_congr_left
      intro type ht
      exact h _ (sizeOf_withType_lt hseveral.2 ht)
    · rw [partsBy_congr h]
  | .null | .bool _ | .number _ | .string _ | .array _ => rfl

/-- Reading to a depth of the size of a value reads it, whatever is read below that depth. -/
theorem iterate_readStep (deeper : Json → Schema) {value : Json} {depth : Nat}
    (h : sizeOf value ≤ depth) : readStep^[depth] deeper value = ofJson value := by
  induction depth generalizing value with
  | zero => cases value <;> simp at h
  | succ depth ih =>
      rw [Function.iterate_succ_apply', ← readStep_ofJson value]
      apply readStep_congr
      intro below hb
      exact ih (by omega)

end

/-! ## Reading by keywords -/

/-- Neither annotations nor the order of keywords matter: values of one core are read as one schema.
This covers the objects that only list several types, whose members are read from edited copies of the
whole object. Reading step by step, edited copies and all, comes to an end on every value: within as many
steps as the value is large, whatever would be read after them. -/
theorem ofJson_by_keywords :
    (∀ value value' : Json, core value = core value' → ofJson value = ofJson value') ∧
      (∀ members : Members, ShapedByType members → 2 ≤ (valueTypes members).length →
        ofJson (.object members) = .composite (flagsOf members) .anyOf
          ((valueTypes members).map fun type => ofJson (.object (members.withType type)))) ∧
      ∀ (value : Json) (depth : Nat) (deeper : Json → Schema), sizeOf value ≤ depth →
        readStep^[depth] deeper value = ofJson value := by
  refine ⟨?_, ?_, ?_⟩
  · intro value value' h
    exact ofJson_eq_of_core_eq h
  · intro members h hlong
    exact ofJson_of_several h hlong
  · intro value depth deeper h
    exact iterate_readStep deeper h

/-- A choice between a text and an object, with annotations on each level. -/
def annotatedChoice : Members :=
  [("title", .string "choice"), ("type", .array [.string "string", .string "null", .string "object"]),
    ("properties", .object [("p", .object
      [("description", .string "inner"), ("type", .string "integer"), ("readOnly", .bool true)])]),
    ("example", .null), ("required", .array [.string "p"]), ("nullable", .bool true)]

/-- The same choice without the annotations, its keywords the other way round. -/
def bareChoice : Members :=
  [("nullable", .bool true), ("required", .array [.string "p"]),
    ("properties", .object [("p", .object [("readOnly", .bool true), ("type", .string "integer")])]),
    ("type", .array [.string "string", .string "null", .string "object"])]

/-- A choice with annotations in its members is read like the choice without them, also step by step. -/
theorem ofJson_annotatedChoice :
    core (.object annotatedChoice) = core (.object bareChoice) ∧
      ofJson (.object annotatedChoice) = ofJson (.object bareChoice) ∧
      ShapedByType annotatedChoice ∧ valueTypes annotatedChoice = ["string", "object"] ∧
      ofJson (.object annotatedChoice) = .composite { nullable := true } .anyOf
        [ofJson (.object (annotatedChoice.withType "string")),
          ofJson (.object (annotatedChoice.withType "object"))] ∧
      ofJson (.object (annotatedChoice.withType "object"))
        = .object {} [⟨"p", true, .primitive { readOnly := true } .integer⟩] ∧
      readStep^[sizeOf (Json.object annotatedChoice)] (fun _ => .unknown {})
        (.object annotatedChoice) = ofJson (.object annotatedChoice) := by
  obtain ⟨hcore, hseveral, hsteps⟩ := ofJson_by_keywords
  have hshaped : ShapedByType annotatedChoice := by decide
  have hsame : core (.object annotatedChoice) = core (.object bareChoice) := rfl
  exact ⟨hsame, hcore _ _ hsame, hshaped, rfl, hseveral annotatedChoice hshaped (by decide), rfl,
    hsteps _ _ _ (Nat.le_refl _)⟩

end Schema

end OpenApi
