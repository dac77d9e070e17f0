import OpenApi.Proofs.Schema.Outline

/-!
# Types in normal form

A type is in normal form if each union and each intersection in it, at every depth, has at least two
members and none of its own kind. Splicing goes one level deep and a lone member replaces its wrapper,
so neither gives normal forms by itself: what is spliced in must be normal already, and then its
members are of another kind than what they are spliced into (`normal_unionOf`,
`normal_intersectionOf`). A lone member may well be of the other kind, but it stands nowhere else than
where the wrapper stood.

Lowering builds its types from the leaves up and never splices an empty list, so all it gives is normal:
`lower_flat`.
-/

namespace OpenApi

namespace TypeExpr

/-! ## Subterms -/

mutual

/-- A type and everything in it, at every depth. -/
def subterms : TypeExpr → List TypeExpr
  | array item => array item :: subterms item
  | record fields => record fields :: fieldSubterms fields
  | union members => union members :: allSubterms members
  | intersection members => intersection members :: allSubterms members
  | leaf => [leaf]

/-- The subterms of some types. -/
def allSubterms : List TypeExpr → List TypeExpr
  | [] => []
  | type :: rest => subterms type ++ allSubterms rest

/-- The subterms of the types of some fields. -/
def fieldSubterms : List (Field TypeExpr) → List TypeExpr
  | [] => []
  | ⟨_, _, type⟩ :: rest => subterms type ++ fieldSubterms rest

end

/-- Whether something holds of a type and of everything in it. -/
def Everywhere (p : TypeExpr → Prop) (type : TypeExpr) : Prop := ∀ part ∈ type.subterms, p part

instance (p : TypeExpr → Prop) [DecidablePred p] : DecidablePred (Everywhere p) :=
  fun type => inferInstanceAs (Decidable (∀ part ∈ type.subterms, p part))

section

variable {p : TypeExpr → Prop}

theorem mem_allSubterms {types : List TypeExpr} {part : TypeExpr} :
    part ∈ allSubterms types ↔ ∃ type ∈ types, part ∈ type.subterms := by
  induction types with
  | nil => simp [allSubterms]
  | cons type rest ih => simp [allSubterms, ih]

theorem mem_fieldSubterms {fields : List (Field TypeExpr)} {part : TypeExpr} :
    part ∈ fieldSubterms fields ↔ ∃ field ∈ fields, part ∈ field.type.subterms := by
  induction fields with
  | nil => simp [fieldSubterms]
  | cons field rest ih =>
      obtain ⟨name, optional, type⟩ := field
      simp [fieldSubterms, ih]

/-- A type is among its own subterms. -/
theorem self_mem_subterms (type : TypeExpr) : type ∈ type.subterms := by
  cases type <;> exact List.mem_cons_self

theorem Everywhere.self {type : TypeExpr} (h : type.Everywhere p) : p type :=
  h type type.self_mem_subterms

/-- What is a leaf has only itself to look at. -/
theorem everywhere_of_isAtom {type : TypeExpr} (ha : type.isAtom = true) :
    type.Everywhere p ↔ p type := by
  cases type <;> first | exact List.forall_mem_singleton | cases ha

theorem everywhere_named {name : String} : (named name).Everywhere p ↔ p (named name) :=
  List.forall_mem_singleton

theorem everywhere_array {item : TypeExpr} :
    (array item).Everywhere p ↔ p (array item) ∧ item.Everywhere p := by
  simp only [Everywhere, subterms, List.forall_mem_cons]

theorem everywhere_record {fields : List (Field TypeExpr)} :
    (record fields).Everywhere p ↔
      p (record fields) ∧ ∀ field ∈ fields, field.type.Everywhere p := by
  simp only [Everywhere, subterms, List.forall_mem_cons, mem_fieldSubterms]
  constructor
  · rintro ⟨hself, hparts⟩
    exact ⟨hself, fun field hf part hp => hparts part ⟨field, hf, hp⟩⟩
  · rintro ⟨hself, hfields⟩
    refine ⟨hself, ?_⟩
    rintro part ⟨field, hf, hp⟩
    exact hfields field hf part hp

theorem forall_mem_allSubterms {types : List TypeExpr} :
    (∀ part ∈ allSubterms types, p part) ↔ ∀ type ∈ types, type.Everywhere p := by
  constructor
  · intro h type ht part hp
    exact h part (mem_allSubterms.mpr ⟨type, ht, hp⟩)
  · intro h part hp
    obtain ⟨type, ht, hpart⟩ := mem_allSubterms.mp hp
    exact h type ht part hpart

theorem everywhere_union {members : List TypeExpr} :
    (union members).Everywhere p ↔
      p (union members) ∧ ∀ member ∈ members, member.Everywhere p := by
  rw [← forall_mem_allSubterms]
  simp only [Everywhere, subterms, List.forall_mem_cons]

theorem everywhere_intersection {members : List TypeExpr} :
    (intersection members).Everywhere p ↔
      p (intersection members) ∧ ∀ member ∈ members, member.Everywhere p := by
  rw [← forall_mem_allSubterms]
  simp only [Everywhere, subterms, List.forall_mem_cons]

end

/-! ## Normal forms -/

/-- Whether a type is a union. -/
def isUnion : TypeExpr → Bool
  | union _ => true
  | _ => false

/-- Whether a type is an intersection. -/
def isIntersection : TypeExpr → Bool
  | intersection _ => true
  | _ => false

/-- If a type is a union or an intersection, it has at least two members and none of its own kind. -/
def IsFlat : TypeExpr → Prop
  | union members => 2 ≤ members.length ∧ ∀ member ∈ members, member.isUnion = false
  | intersection members => 2 ≤ members.length ∧ ∀ member ∈ members, member.isIntersection = false
  | _ => True

instance : DecidablePred IsFlat
  | union members =>
    inferInstanceAs (Decidable (2 ≤ members.length ∧ ∀ member ∈ members, member.isUnion = false))
  | intersection members =>
    inferInstanceAs
      (Decidable (2 ≤ members.length ∧ ∀ member ∈ members, member.isIntersection = false))
  | named _ | primitive _ | stringLiteral _ | literal _ | null | unknown | openObject | array _
  | record _ => isTrue trivial

/-- All unions and intersections in a type are flat. -/
abbrev Normal (type : TypeExpr) : Prop := type.Everywhere IsFlat

theorem normal_named (name : String) : (named name).Normal := everywhere_named.mpr trivial

theorem normal_of_isAtom {type : TypeExpr} (ha : type.isAtom = true) : type.Normal := by
  rw [Normal, everywhere_of_isAtom ha]
  cases type <;> trivial

theorem normal_array {item : TypeExpr} (h : item.Normal) : (array item).Normal :=
  everywhere_array.mpr ⟨trivial, h⟩

theorem normal_record {fields : List (Field TypeExpr)} (h : ∀ field ∈ fields, field.type.Normal) :
    (record fields).Normal :=
  everywhere_record.mpr ⟨trivial, h⟩

/-! ## Splicing -/

/-- Members that are normal and not of the kind of their wrapper make a normal type, wrapped or
alone. -/
theorem normal_collapse {wrap : List TypeExpr → TypeExpr} {kind : TypeExpr → Bool}
    (hwrap : ∀ members, 2 ≤ members.length →
      (∀ member ∈ members, member.Normal ∧ kind member = false) → (wrap members).Normal)
    {members : List TypeExpr} (hne : members ≠ [])
    (h : ∀ member ∈ members, member.Normal ∧ kind member = false) :
    (collapse wrap members).Normal := by
  match members with
  | [] => exact absurd rfl hne
  | [single] => exact (h single List.mem_cons_self).1
  | first :: second :: rest =>
    apply hwrap _ _ h
    simp only [List.length_cons]
    omega

/-- What a normal type contributes to a union is no union, and not nothing. -/
theorem Normal.unionMembers {type : TypeExpr} (h : type.Normal) :
    type.unionMembers ≠ [] ∧
      ∀ member ∈ type.unionMembers, member.Normal ∧ member.isUnion = false := by
  cases type with
  | union members =>
      obtain ⟨⟨hlength, hkind⟩, hmembers⟩ := everywhere_union.mp h
      refine ⟨List.ne_nil_of_length_pos ?_, fun member hm => ⟨hmembers member hm, hkind member hm⟩⟩
      show 0 < members.length
      omega
  | _ => exact ⟨List.cons_ne_nil _ _, List.forall_mem_singleton.mpr ⟨h, rfl⟩⟩

/-- What a normal type contributes to an intersection is no intersection, and not nothing. -/
theorem Normal.intersectionMembers {type : TypeExpr} (h : type.Normal) :
    type.intersectionMembers ≠ [] ∧
      ∀ member ∈ type.intersectionMembers, member.Normal ∧ member.isIntersection = false := by
  cases type with
  | intersection members =>
      obtain ⟨⟨hlength, hkind⟩, hmembers⟩ := everywhere_intersection.mp h
      refine ⟨List.ne_nil_of_length_pos ?_, fun member hm => ⟨hmembers member hm, hkind member hm⟩⟩
      show 0 < members.length
      omega
  | _ => exact ⟨List.cons_ne_nil _ _, List.forall_mem_singleton.mpr ⟨h, rfl⟩⟩

/-- Splicing normal types gives members that are normal and not of the kind spliced. -/
theorem spliced {splice : TypeExpr → List TypeExpr} {kind : TypeExpr → Bool}
    (hsplice : ∀ type : TypeExpr, type.Normal → splice type ≠ [] ∧
      ∀ member ∈ splice type, member.Normal ∧ kind member = false)
    {types : List TypeExpr} (hne : types ≠ []) (h : ∀ type ∈ types, type.Normal) :
    types.flatMap splice ≠ [] ∧
      ∀ member ∈ types.flatMap splice, member.Normal ∧ kind member = false := by
  constructor
  · intro hnil
    obtain ⟨type, ht⟩ := List.exists_mem_of_ne_nil types hne
    exact (hsplice type (h type ht)).1 (List.flatMap_eq_nil_iff.mp hnil type ht)
  · intro member hm
    obtain ⟨type, ht, hm⟩ := List.mem_flatMap.mp hm
    exact (hsplice type (h type ht)).2 member hm

theorem normal_unionOf {types : List TypeExpr} (hne : types ≠ [])
    (h : ∀ type ∈ types, type.Normal) : (unionOf types).Normal := by
  obtain ⟨hflat, hmembers⟩ := spliced (fun _ => Normal.unionMembers) hne h
  rw [unionOf_eq_collapse]
  apply normal_collapse _ hflat hmembers
  intro members hlength hm
  exact everywhere_union.mpr ⟨⟨hlength, fun m hin => (hm m hin).2⟩, fun m hin => (hm m hin).1⟩

theorem normal_intersectionOf {types : List TypeExpr} (hne : types ≠ [])
    (h : ∀ type ∈ types, type.Normal) : (intersectionOf types).Normal := by
  obtain ⟨hflat, hmembers⟩ := spliced (fun _ => Normal.intersectionMembers) hne h
  rw [intersectionOf_eq_collapse]
  apply normal_collapse _ hflat hmembers
  intro members hlength hm
  exact everywhere_intersection.mpr
    ⟨⟨hlength, fun m hin => (hm m hin).2⟩, fun m hin => (hm m hin).1⟩

end TypeExpr

/-! ## Lowering -/

namespace Api

open TypeExpr

theorem normal_withNull (nullable : Bool) {type : TypeExpr} (h : type.Normal) :
    (withNull nullable type).Normal := by
  unfold withNull
  split
  · apply normal_unionOf (List.cons_ne_nil _ _)
    rw [List.forall_mem_cons, List.forall_mem_singleton]
    exact ⟨h, normal_of_isAtom rfl⟩
  · exact h

/-- A composite without typed members has no type, so nothing empty is spliced. -/
theorem normal_of_composed {kind : Composition} {types : List TypeExpr} {type : TypeExpr}
    (h : ∀ type ∈ types, type.Normal) (hc : composed kind types = some type) : type.Normal := by
  cases types with
  | nil => cases hc
  | cons first rest =>
      cases kind with
      | allOf =>
          cases hc
          exact normal_intersectionOf (List.cons_ne_nil _ _) h
      | oneOf | anyOf =>
          cases hc
          exact normal_unionOf (List.cons_ne_nil _ _) h

theorem normal_getD {type? : Option TypeExpr} (h : ∀ type ∈ type?, type.Normal) :
    (type?.getD .unknown).Normal := by
  cases type? with
  | none => exact normal_of_isAtom rfl
  | some type => exact h type rfl

section

variable (api : Api) (context : Context)

mutual

/-- By recursion on the schema: what lowering gives is normal, since all that it splices is. -/
theorem normal_of_mem_lower (schema : Schema) :
    ∀ type ∈ lower api context schema, type.Normal := by
  intro type h
  match schema with
  | .reference flags pointer =>
    cases h
    exact normal_withNull _ (normal_named _)
  | .composite flags kind members =>
    obtain ⟨bare, hbare, rfl⟩ := Option.map_eq_some_iff.mp h
    exact normal_withNull _ (normal_of_composed (normal_of_mem_lowerMembers members) hbare)
  | .enumeration _ [] _ => cases h
  | .enumeration flags (value :: values) base =>
    cases h
    apply normal_withNull
    apply normal_unionOf (List.cons_ne_nil _ _)
    show ∀ type ∈ (value :: values).map (ofValue base), type.Normal
    rw [List.forall_mem_map]
    intro value _
    exact normal_of_isAtom (Outline.isAtom_ofValue base value)
  | .array flags none =>
    cases h
    exact normal_withNull _ (normal_array (normal_of_isAtom rfl))
  | .array flags (some items) =>
    cases h
    exact normal_withNull _ (normal_array (normal_getD (normal_of_mem_lower items)))
  | .object flags [] =>
    cases h
    exact normal_withNull _ (normal_of_isAtom rfl)
  | .object flags (property :: rest) =>
    cases h
    exact normal_withNull _ (normal_record (normal_of_mem_lowerProperties (property :: rest)))
  | .primitive flags kind =>
    cases h
    exact normal_withNull _ (normal_of_isAtom rfl)
  | .unknown _ => cases h

theorem normal_of_mem_lowerMembers (schemas : List Schema) :
    ∀ type ∈ lowerMembers api context schemas, type.Normal := by
  intro type h
  match schemas with
  | [] => cases h
  | schema :: rest =>
    rcases List.mem_append.mp h with h | h
    · exact normal_of_mem_lower schema type (Option.mem_toList.mp h)
    · exact normal_of_mem_lowerMembers rest type h

theorem normal_of_mem_lowerProperties (properties : List (Property Schema)) :
    ∀ field ∈ lowerProperties api context properties, field.type.Normal := by
  intro field h
  match properties with
  | [] => cases h
  | ⟨name, required, schema⟩ :: rest =>
    rcases List.mem_append.mp h with h | h
    · unfold lowerProperty at h
      -- a property that the view hides has no field
      split at h
      · cases h
      · rw [List.mem_singleton.mp h]
        exact normal_getD (normal_of_mem_lower schema)
    · exact normal_of_mem_lowerProperties rest field h

end

end

/-- What lowering gives is in normal form, in every context: each union and each intersection, at every
depth, has at least two members, and no member of its own kind. -/
theorem lower_flat {api : Api} {context : Context} {schema : Schema} {type : TypeExpr}
    (h : api.lower context schema = some type) :
    (∀ members, .union members ∈ type.subterms →
        2 ≤ members.length ∧ ∀ inner, .union inner ∉ members) ∧
      ∀ members, .intersection members ∈ type.subterms →
        2 ≤ members.length ∧ ∀ inner, .intersection inner ∉ members := by
  have hnormal : type.Normal := normal_of_mem_lower api context schema type h
  constructor
  · intro members hm
    obtain ⟨hlength, hkind⟩ := hnormal _ hm
    refine ⟨hlength, fun inner hin => ?_⟩
    cases hkind _ hin
  · intro members hm
    obtain ⟨hlength, hkind⟩ := hnormal _ hm
    refine ⟨hlength, fun inner hin => ?_⟩
    cases hkind _ hin

/-- A choice in a choice, each admitting null, beside a composite that holds a choice. -/
def nestedSchema : Schema :=
  .composite {} .anyOf
    [.composite { nullable := true } .oneOf [.primitive {} .string, .primitive {} .boolean],
      .composite {} .allOf
        [.composite { nullable := true } .anyOf [.primitive {} .integer], .object {} [],
          .composite {} .allOf [.reference {} "#/A", .unknown {}]]]

/-- What `nestedSchema` is lowered to: the inner choice is spliced, the choice inside the intersection
is not, and the lone member of the inner intersection is. -/
def nestedType : TypeExpr :=
  .union
    [.primitive .string, .primitive .boolean, .null,
      .intersection [.union [.primitive .integer, .null], .openObject, .named "A"]]

theorem lower_flat_nested :
    Api.lower ⟨⟨"mem:/empty", .object []⟩, {}⟩ {} nestedSchema = some nestedType ∧
      (∀ members, .union members ∈ nestedType.subterms →
          2 ≤ members.length ∧ ∀ inner, .union inner ∉ members) ∧
        ∀ members, .intersection members ∈ nestedType.subterms →
          2 ≤ members.length ∧ ∀ inner, .intersection inner ∉ members := by
  have h : Api.lower ⟨⟨"mem:/empty", .object []⟩, {}⟩ {} nestedSchema = some nestedType := rfl
  exact ⟨h, lower_flat h⟩

end Api

end OpenApi
