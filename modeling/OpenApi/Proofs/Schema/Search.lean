import OpenApi.Proofs.Schema.Agreement

/-!
# The search for a flag decides reachability

A document is a graph of schemas: a composite leads to its members, an object to the schemas of its
properties, an array to its items, and a reference to what its pointer designates. `Document.holds`
goes through this graph depth first, passes over pointers that it has met before, in whichever branch, and
stops at the first flag. `search_exact` says that nothing of this shows: the search ends by itself before
its bound, the answer is whether a node with the flag can be reached, and so it is the same however the
members and properties are arranged, in the schema and in everything that its references lead to.

The last point needs no path through the graph: rearranged schemas carry the same flags and have the
same pointers, so the search goes on alike in both documents.
-/

namespace OpenApi

namespace Schema

/-! ## The tree of a schema -/

/-- A schema stands directly below another one. -/
inductive Child : Schema → Schema → Prop where
  | member {flags kind members schema} (h : schema ∈ members) :
      Child (.composite flags kind members) schema
  | property {flags properties property} (h : property ∈ properties) :
      Child (.object flags properties) property.schema
  | items {flags items} : Child (.array flags (some items)) items

theorem sizeOf_lt_of_child {schema below : Schema} (h : schema.Child below) :
    sizeOf below < sizeOf schema := by
  cases h with
  | member h =>
      have := List.sizeOf_lt_of_mem h
      simp only [composite.sizeOf_spec]
      omega
  | @property flags properties property h =>
      have := List.sizeOf_lt_of_mem h
      have : sizeOf property.schema < sizeOf property := by
        cases property
        simp only [Property.mk.sizeOf_spec]
        omega
      simp only [object.sizeOf_spec]
      omega
  | items =>
      simp only [array.sizeOf_spec, Option.some.sizeOf_spec]
      omega

/-- What holds of a schema whenever it holds of all schemas directly below it holds of every schema. -/
theorem child_induction {P : Schema → Prop}
    (step : ∀ schema, (∀ below, schema.Child below → P below) → P schema) (schema : Schema) :
    P schema :=
  step schema fun below _ => child_induction step below
termination_by sizeOf schema
decreasing_by exact sizeOf_lt_of_child ‹_›

theorem anyCarries_iff {access : Access} {schemas : List Schema} :
    anyCarries access schemas = true ↔ ∃ schema ∈ schemas, schema.carries access = true := by
  induction schemas with
  | nil => simp [anyCarries]
  | cons schema rest ih => simp [anyCarries, ih]

theorem anyPropertyCarries_iff {access : Access} {properties : List (Property Schema)} :
    anyPropertyCarries access properties = true ↔
      ∃ property ∈ properties, property.schema.carries access = true := by
  induction properties with
  | nil => simp [anyPropertyCarries]
  | cons property rest ih => simp [anyPropertyCarries, ih]

/-- A schema carries a flag if it has it or a schema directly below it carries it. -/
theorem carries_iff_child {access : Access} {schema : Schema} :
    schema.carries access = true ↔
      schema.flags.has access = true ∨ ∃ below, schema.Child below ∧ below.carries access = true := by
  constructor
  · intro h
    match schema with
    | .composite _ _ _ =>
      rw [carries, Bool.or_eq_true, anyCarries_iff] at h
      exact h.imp_right fun ⟨below, hm, hc⟩ => ⟨below, .member hm, hc⟩
    | .object _ _ =>
      rw [carries, Bool.or_eq_true, anyPropertyCarries_iff] at h
      exact h.imp_right fun ⟨property, hm, hc⟩ => ⟨_, .property hm, hc⟩
    | .array _ (some items) =>
      rw [carries, Bool.or_eq_true] at h
      exact h.imp_right fun hc => ⟨items, .items, hc⟩
    | .array _ none | .reference _ _ | .enumeration _ _ _ | .primitive _ _ | .unknown _ =>
      exact .inl h
  · rintro (h | ⟨below, hchild, hc⟩)
    · cases hc : schema.carries access with
      | true => rfl
      | false =>
          rw [Api.flags_has_of_carries hc] at h
          cases h
    · cases hchild with
      | member hm =>
          rw [carries, Bool.or_eq_true, anyCarries_iff]
          exact .inr ⟨below, hm, hc⟩
      | property hm =>
          rw [carries, Bool.or_eq_true, anyPropertyCarries_iff]
          exact .inr ⟨_, hm, hc⟩
      | items =>
          rw [carries, Bool.or_eq_true]
          exact .inr hc

/-- The pointers of a schema are its own and those of the schemas directly below it. -/
theorem mem_pointers_iff_child {pointer : String} {schema : Schema} :
    pointer ∈ schema.pointers ↔
      schema.pointer? = some pointer ∨ ∃ below, schema.Child below ∧ pointer ∈ below.pointers := by
  constructor
  · intro h
    match schema with
    | .reference _ _ =>
      rw [pointers, List.mem_singleton] at h
      exact .inl (congrArg some h.symm)
    | .composite _ _ _ =>
      rw [pointers, mem_allPointers] at h
      obtain ⟨below, hm, hp⟩ := h
      exact .inr ⟨below, .member hm, hp⟩
    | .object _ _ =>
      rw [pointers, mem_propertyPointers] at h
      obtain ⟨property, hm, hp⟩ := h
      exact .inr ⟨_, .property hm, hp⟩
    | .array _ (some items) => exact .inr ⟨items, .items, h⟩
  · rintro (h | ⟨below, hchild, hp⟩)
    · cases schema with
      | reference =>
          cases h
          exact List.mem_singleton_self _
      | _ => cases h
    · cases hchild with
      | member hm =>
          rw [pointers, mem_allPointers]
          exact ⟨below, hm, hp⟩
      | property hm =>
          rw [pointers, mem_propertyPointers]
          exact ⟨_, hm, hp⟩
      | items => exact hp

/-! ## Rearrangement -/

/-- Two schemas are equal up to the order of members and of properties, at any depth. -/
inductive Rearranged : Schema → Schema → Prop where
  | refl {schema} : Rearranged schema schema
  | trans {first second third} (left : Rearranged first second) (right : Rearranged second third) :
      Rearranged first third
  | members {flags kind first second} (h : first.Perm second) :
      Rearranged (.composite flags kind first) (.composite flags kind second)
  | properties {flags first second} (h : first.Perm second) :
      Rearranged (.object flags first) (.object flags second)
  | member {flags kind before after schema schema'} (h : Rearranged schema schema') :
      Rearranged (.composite flags kind (before ++ schema :: after))
        (.composite flags kind (before ++ schema' :: after))
  | property {flags before after name required schema schema'} (h : Rearranged schema schema') :
      Rearranged (.object flags (before ++ ⟨name, required, schema⟩ :: after))
        (.object flags (before ++ ⟨name, required, schema'⟩ :: after))
  | items {flags schema schema'} (h : Rearranged schema schema') :
      Rearranged (.array flags (some schema)) (.array flags (some schema'))

theorem Rearranged.symm {schema schema' : Schema} (h : Rearranged schema schema') :
    Rearranged schema' schema := by
  induction h with
  | refl => exact .refl
  | trans _ _ left right => exact right.trans left
  | members h => exact .members h.symm
  | properties h => exact .properties h.symm
  | member _ ih => exact .member ih
  | property _ ih => exact .property ih
  | items _ ih => exact .items ih

/-- Whether an element of a list has a property is decided in one place if the rest stays. -/
theorem exists_mem_middle {α : Type} {P : α → Prop} {before after : List α} {first second : α}
    (h : P first ↔ P second) :
    (∃ element ∈ before ++ first :: after, P element) ↔
      ∃ element ∈ before ++ second :: after, P element := by
  simp only [List.mem_append, List.mem_cons, or_and_right, exists_or, exists_eq_left, h]

theorem Rearranged.carries_iff {access : Access} {schema schema' : Schema}
    (h : Rearranged schema schema') :
    schema.carries access = true ↔ schema'.carries access = true := by
  induction h with
  | refl => rfl
  | trans _ _ left right => exact left.trans right
  | members h => simp only [carries, Bool.or_eq_true, anyCarries_iff, h.mem_iff]
  | properties h => simp only [carries, Bool.or_eq_true, anyPropertyCarries_iff, h.mem_iff]
  | member _ ih =>
      simp only [carries, Bool.or_eq_true, anyCarries_iff]
      exact or_congr_right (exists_mem_middle ih)
  | property _ ih =>
      simp only [carries, Bool.or_eq_true, anyPropertyCarries_iff]
      exact or_congr_right (exists_mem_middle ih)
  | items _ ih => simp only [carries, Bool.or_eq_true, ih]

theorem Rearranged.mem_pointers_iff {schema schema' : Schema} (h : Rearranged schema schema')
    {pointer : String} : pointer ∈ schema.pointers ↔ pointer ∈ schema'.pointers := by
  induction h with
  | refl => rfl
  | trans _ _ left right => exact left.trans right
  | members h => simp only [pointers, mem_allPointers, h.mem_iff]
  | properties h => simp only [pointers, mem_propertyPointers, h.mem_iff]
  | member _ ih =>
      simp only [pointers, mem_allPointers]
      exact exists_mem_middle ih
  | property _ ih =>
      simp only [pointers, mem_propertyPointers]
      exact exists_mem_middle ih
  | items _ ih => exact ih

end Schema

/-! ## The graph of a document -/

namespace Document

variable {doc doc' : Document} {access : Access} {schema schema' : Schema}

/-- One schema leads to another: to what stands directly below it, or to what it refers to. -/
inductive Step (doc : Document) : Schema → Schema → Prop where
  | child {schema below} (h : schema.Child below) : Step doc schema below
  | target {flags pointer found} (h : doc.schemaAt? pointer = some found) :
      Step doc (.reference flags pointer) found

/-- The flag is set at a schema that another one leads to in any number of steps. -/
def Reachable (doc : Document) (access : Access) (schema : Schema) : Prop :=
  ∃ node, Relation.ReflTransGen doc.Step schema node ∧ node.flags.has access = true

theorem Reachable.step {next : Schema} (hs : doc.Step schema next)
    (h : doc.Reachable access next) : doc.Reachable access schema := by
  obtain ⟨node, hreach, hflag⟩ := h
  exact ⟨node, hreach.head hs, hflag⟩

theorem reachable_of_carries (h : schema.carries access = true) :
    doc.Reachable access schema := by
  induction schema using Schema.child_induction with
  | step schema ih =>
      rcases Schema.carries_iff_child.mp h with hown | ⟨below, hchild, hc⟩
      · exact ⟨schema, .refl, hown⟩
      · exact (ih below hchild hc).step (.child hchild)

/-- A flag that is set at what a pointer of a schema leads to is reached from the schema. -/
theorem reachable_of_mem_pointers {pointer : String} {found : Schema}
    (hm : pointer ∈ schema.pointers) (hf : doc.schemaAt? pointer = some found)
    (h : doc.Reachable access found) : doc.Reachable access schema := by
  induction schema using Schema.child_induction with
  | step schema ih =>
      rcases Schema.mem_pointers_iff_child.mp hm with hown | ⟨below, hchild, hp⟩
      · cases schema with
        | reference =>
            cases hown
            exact h.step (.target hf)
        | _ => cases hown
      · exact (ih below hchild hp).step (.child hchild)

/-- What a schema directly below another one holds is held by that. -/
theorem holds_of_child {below : Schema} (hchild : schema.Child below)
    (h : doc.holds access below = true) : doc.holds access schema = true := by
  rcases holds_iff.mp h with hc | ⟨start, hm, hreach⟩
  · exact holds_iff.mpr (.inl (Schema.carries_iff_child.mpr (.inr ⟨below, hchild, hc⟩)))
  · exact holds_iff.mpr
      (.inr ⟨start, Schema.mem_pointers_iff_child.mpr (.inr ⟨below, hchild, hm⟩), hreach⟩)

/-- A schema holds a flag exactly if a schema with the flag can be reached from it. -/
theorem holds_iff_reachable : doc.holds access schema = true ↔ doc.Reachable access schema := by
  constructor
  · intro h
    rcases holds_iff.mp h with hc | ⟨start, hm, pointer, target, hreach, ht, hc⟩
    · exact reachable_of_carries hc
    · clear h
      -- on the chain of references, from its start
      induction hreach using Relation.ReflTransGen.head_induction_on generalizing schema with
      | refl => exact reachable_of_mem_pointers hm ht (reachable_of_carries hc)
      | head hstep _ ih =>
          obtain ⟨found, hs, hnext⟩ := refers_iff.mp hstep
          exact reachable_of_mem_pointers hm hs (ih hnext)
  · rintro ⟨node, hreach, hflag⟩
    induction hreach using Relation.ReflTransGen.head_induction_on with
    | refl => exact holds_iff.mpr (.inl (Schema.carries_iff_child.mpr (.inl hflag)))
    | head hstep _ ih =>
        cases hstep with
        | child hchild => exact holds_of_child hchild ih
        | target hf => exact holds_of_mem_pointers (List.mem_singleton_self _) hf ih

/-! ## Rearranged documents -/

/-- Wherever the references of a schema lead, another document has the same schema up to order. -/
def RearrangedFrom (doc doc' : Document) (schema : Schema) : Prop :=
  ∀ pointer, doc.Reaches schema pointer →
    Option.Rel Schema.Rearranged (doc.schemaAt? pointer) (doc'.schemaAt? pointer)

theorem RearrangedFrom.target {target : Schema} {pointer : String}
    (h : RearrangedFrom doc doc' schema) (hm : pointer ∈ schema.pointers)
    (ht : doc.schemaAt? pointer = some target) : RearrangedFrom doc doc' target :=
  fun next hn => h next ((reaches_of_mem hm).trans ht hn)

theorem matching_of_rearranged (doc doc' : Document) (access : Access) :
    Matching doc doc' access fun schema schema' =>
      schema.Rearranged schema' ∧ RearrangedFrom doc doc' schema where
  carries hs := Bool.eq_iff_iff.mpr hs.1.carries_iff
  pointers hs _ := hs.1.mem_pointers_iff
  targets {schema schema' pointer} hs _ hp := by
    have hrel := hs.2 pointer (reaches_of_mem hp)
    have htarget : ∀ {target}, doc.schemaAt? pointer = some target →
        RearrangedFrom doc doc' target := fun ht => hs.2.target hp ht
    generalize doc.schemaAt? pointer = found at hrel htarget ⊢
    generalize doc'.schemaAt? pointer = found' at hrel ⊢
    cases hrel with
    | none => exact .none
    | some hrel => exact .some ⟨hrel, htarget rfl⟩

/-- The search for a flag ends by itself: from a certain bound on, every bound gives the same answer. It
is whether a schema with the flag can be reached, so the order of members and properties, in the schema
and wherever its references lead, does not matter. -/
theorem search_exact (doc : Document) (access : Access) (schema : Schema) :
    (∃ visited, ∀ depth, doc.searchDepth ≤ depth →
      schema.probe access (doc.follow access depth) [] = some (doc.holds access schema, visited)) ∧
    (doc.holds access schema = true ↔ doc.Reachable access schema) ∧
    ∀ doc' schema', schema.Rearranged schema' → doc.RearrangedFrom doc' schema →
      doc'.holds access schema' = doc.holds access schema := by
  refine ⟨exists_probe_eq doc access schema, holds_iff_reachable, ?_⟩
  intro doc' schema' hs hfrom
  exact ((matching_of_rearranged doc doc' access).holds_eq ⟨hs, hfrom⟩).symm

/-- A user, who has friends and an account. -/
def userProperties : Members :=
  [("friend", .object [("$ref", .string "#/components/schemas/User")]),
    ("account", .object [("$ref", .string "#/components/schemas/Account")])]

/-- An account, which belongs to a user and has a password. -/
def accountProperties : Members :=
  [("owner", .object [("$ref", .string "#/components/schemas/User")]),
    ("password", .object [("type", .string "string"), ("writeOnly", .bool true)])]

/-- A document that declares users and accounts by their properties. -/
def accounts (user account : Members) : Document :=
  ⟨"mem:/accounts", .object [("components", .object [("schemas", .object
    [("User", .object [("type", .string "object"), ("properties", .object user)]),
      ("Account", .object [("type", .string "object"), ("properties", .object account)])])])]⟩

/-- The search passes the cycle between users and accounts and finds the password, whichever way the
properties of both are listed. -/
theorem search_accounts :
    (∀ depth, 5 ≤ depth →
      (Schema.reference {} "#/components/schemas/User").probe .writeOnly
          ((accounts userProperties accountProperties).follow .writeOnly depth) []
        = some (true, ["#/components/schemas/Account", "#/components/schemas/User"])) ∧
    (accounts userProperties accountProperties).Reachable .writeOnly
      (.reference {} "#/components/schemas/User") ∧
    (accounts userProperties.reverse accountProperties.reverse).holds .writeOnly
      (.reference {} "#/components/schemas/User") = true := by
  obtain ⟨⟨visited, hdepth⟩, hiff, horder⟩ :=
    search_exact (accounts userProperties accountProperties) .writeOnly
      (.reference {} "#/components/schemas/User")
  have hfive : (Schema.reference {} "#/components/schemas/User").probe .writeOnly
      ((accounts userProperties accountProperties).follow .writeOnly 5) []
        = some (true, ["#/components/schemas/Account", "#/components/schemas/User"]) := by decide
  have hfound := (hdepth 5 (by decide)).symm.trans hfive
  have hholds : (accounts userProperties accountProperties).holds .writeOnly
      (.reference {} "#/components/schemas/User") = true := congrArg Prod.fst (Option.some.inj hfound)
  refine ⟨fun depth h => (hdepth depth h).trans hfound, hiff.mp hholds, ?_⟩
  rw [horder _ _ .refl, hholds]
  intro pointer hr
  have hm : pointer ∈ ["#/components/schemas/User", "#/components/schemas/Account"] :=
    hr.mem_of_closed (by decide) (by decide)
  -- both schemas that the search comes to have their two properties swapped
  simp only [List.mem_cons, List.not_mem_nil, or_false] at hm
  rcases hm with rfl | rfl
  · exact .some (.properties (.swap _ _ []))
  · exact .some (.properties (.swap _ _ []))

end Document

end OpenApi
