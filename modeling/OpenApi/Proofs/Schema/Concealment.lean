import OpenApi.Proofs.Schema.Views

/-!
# Schemas without what a view hides

A view hides whole properties, those with its flag. `conceal` replaces them all by one and the same
schema, so two schemas that differ only in such properties become equal. Nothing that the view shows
is lost: the lowered type is the same (`lower_conceal`), and so is the answer to the question whether
the schema carries the flag. A schema that does not carry it has nothing replaced.
-/

namespace OpenApi

namespace Schema

/-- What stands for a property that a view hides. -/
def concealed : Schema := .unknown { readOnly := true, writeOnly := true }

mutual

/-- The schema with the properties that a view hides replaced. -/
def conceal (view : View) : Schema → Schema
  | .composite flags kind members => .composite flags kind (concealAll view members)
  | .object flags properties => .object flags (concealProperties view properties)
  | .array flags (some items) => .array flags (some (conceal view items))
  | schema => schema

/-- Some schemas, each with the properties that a view hides replaced. -/
def concealAll (view : View) : List Schema → List Schema
  | [] => []
  | schema :: rest => conceal view schema :: concealAll view rest

/-- The properties of an object, those that a view hides replaced. -/
def concealProperties (view : View) : List (Property Schema) → List (Property Schema)
  | [] => []
  | ⟨name, required, schema⟩ :: rest =>
    ⟨name, required, if view.hides schema.flags then concealed else conceal view schema⟩
      :: concealProperties view rest

end

@[simp]
theorem flags_conceal (view : View) (schema : Schema) : (schema.conceal view).flags = schema.flags := by
  match schema with
  | .composite _ _ _ => rw [conceal]; rfl
  | .object _ _ => rw [conceal]; rfl
  | .array _ (some _) => rw [conceal]; rfl
  | .array _ none | .reference _ _ | .enumeration _ _ _ | .primitive _ _ | .unknown _ =>
    rw [conceal] <;> simp

end Schema

/-- What a view hides it also hides when it is replaced. -/
theorem View.hides_concealed {view : View} {flags : Flags} (h : view.hides flags = true) :
    view.hides Schema.concealed.flags = true := by
  cases view with
  | full => cases h
  | request | response => rfl

namespace Api

variable {api : Api} {context : Context}

mutual

/-- A view does not see what it hides. -/
theorem lower_conceal (schema : Schema) :
    lower api context (schema.conceal context.view) = lower api context schema := by
  match schema with
  | .composite flags kind members =>
    rw [Schema.conceal, lower, lower, lowerMembers_concealAll members]
  | .object flags [] => rw [Schema.conceal, Schema.concealProperties]
  | .object flags (property :: rest) =>
    have hproperties := lowerProperties_concealProperties (property :: rest)
    obtain ⟨name, required, schema⟩ := property
    rw [Schema.conceal, Schema.concealProperties, lower, lower, ← lowerProperties,
      ← lowerProperties, ← Schema.concealProperties, hproperties]
  | .array flags (some items) =>
    rw [Schema.conceal, lower, lower, lower_conceal items]
  | .array _ none | .reference _ _ | .enumeration _ _ _ | .primitive _ _ | .unknown _ =>
    rw [Schema.conceal] <;> simp

theorem lowerMembers_concealAll (schemas : List Schema) :
    lowerMembers api context (Schema.concealAll context.view schemas)
      = lowerMembers api context schemas := by
  match schemas with
  | [] => rw [Schema.concealAll]
  | schema :: rest =>
    rw [Schema.concealAll, lowerMembers, lowerMembers, lower_conceal schema,
      lowerMembers_concealAll rest]

theorem lowerProperties_concealProperties (properties : List (Property Schema)) :
    lowerProperties api context (Schema.concealProperties context.view properties)
      = lowerProperties api context properties := by
  match properties with
  | [] => rw [Schema.concealProperties]
  | ⟨name, required, schema⟩ :: rest =>
    rw [Schema.concealProperties, lowerProperties, lowerProperties,
      lowerProperties_concealProperties rest, lowerProperty, lowerProperty]
    by_cases hhides : context.view.hides schema.flags = true
    · rw [if_pos hhides, if_pos hhides, if_pos (View.hides_concealed hhides)]
    · rw [if_neg hhides, if_neg hhides, Schema.flags_conceal, if_neg hhides, lower_conceal schema]

end

end Api

namespace Schema

variable {view : View} {access : Access}

/-- What is replaced carried the flag, and still does. -/
theorem carries_of_hides (hview : view.hidden? = some access) {schema : Schema}
    (h : view.hides schema.flags = true) : schema.carries access = true := by
  rw [Api.hides_eq_has hview] at h
  cases hc : schema.carries access with
  | true => rfl
  | false => cases h.symm.trans (Api.flags_has_of_carries hc)

theorem carries_concealed (access : Access) : concealed.carries access = true := by
  cases access <;> rfl

mutual

theorem carries_conceal (hview : view.hidden? = some access) (schema : Schema) :
    (schema.conceal view).carries access = schema.carries access := by
  match schema with
  | .composite flags kind members =>
    rw [conceal, carries, carries, anyCarries_concealAll hview members]
  | .object flags properties =>
    rw [conceal, carries, carries, anyPropertyCarries_concealProperties hview properties]
  | .array flags (some items) => rw [conceal, carries, carries, carries_conceal hview items]
  | .array _ none | .reference _ _ | .enumeration _ _ _ | .primitive _ _ | .unknown _ =>
    rw [conceal] <;> simp

theorem anyCarries_concealAll (hview : view.hidden? = some access) (schemas : List Schema) :
    anyCarries access (concealAll view schemas) = anyCarries access schemas := by
  match schemas with
  | [] => rw [concealAll]
  | schema :: rest =>
    rw [concealAll, anyCarries, anyCarries, carries_conceal hview schema,
      anyCarries_concealAll hview rest]

theorem anyPropertyCarries_concealProperties (hview : view.hidden? = some access)
    (properties : List (Property Schema)) :
    anyPropertyCarries access (concealProperties view properties)
      = anyPropertyCarries access properties := by
  match properties with
  | [] => rw [concealProperties]
  | ⟨name, required, schema⟩ :: rest =>
    rw [concealProperties, anyPropertyCarries, anyPropertyCarries,
      anyPropertyCarries_concealProperties hview rest]
    by_cases hhides : view.hides schema.flags = true
    · rw [if_pos hhides, carries_concealed, carries_of_hides hview hhides]
    · rw [if_neg hhides, carries_conceal hview schema]

end

mutual

/-- A schema that carries nothing of what the view hides has nothing replaced. -/
theorem conceal_eq_self (hview : view.hidden? = some access) (schema : Schema)
    (h : schema.carries access = false) : schema.conceal view = schema := by
  match schema with
  | .composite flags kind members =>
    rw [carries, Bool.or_eq_false_iff] at h
    rw [conceal, concealAll_eq_self hview members h.2]
  | .object flags properties =>
    rw [carries, Bool.or_eq_false_iff] at h
    rw [conceal, concealProperties_eq_self hview properties h.2]
  | .array flags (some items) =>
    rw [carries, Bool.or_eq_false_iff] at h
    rw [conceal, conceal_eq_self hview items h.2]
  | .array _ none | .reference _ _ | .enumeration _ _ _ | .primitive _ _ | .unknown _ =>
    rw [conceal] <;> simp

theorem concealAll_eq_self (hview : view.hidden? = some access) (schemas : List Schema)
    (h : anyCarries access schemas = false) : concealAll view schemas = schemas := by
  match schemas with
  | [] => rfl
  | schema :: rest =>
    rw [anyCarries, Bool.or_eq_false_iff] at h
    rw [concealAll, conceal_eq_self hview schema h.1, concealAll_eq_self hview rest h.2]

theorem concealProperties_eq_self (hview : view.hidden? = some access)
    (properties : List (Property Schema)) (h : anyPropertyCarries access properties = false) :
    concealProperties view properties = properties := by
  match properties with
  | [] => rfl
  | ⟨name, required, schema⟩ :: rest =>
    rw [anyPropertyCarries, Bool.or_eq_false_iff] at h
    have hshown : ¬view.hides schema.flags = true := by
      intro hhides
      cases h.1.symm.trans (carries_of_hides hview hhides)
    rw [concealProperties, if_neg hshown, conceal_eq_self hview schema h.1,
      concealProperties_eq_self hview rest h.2]

end

mutual

theorem pointers_conceal_subset (view : View) (schema : Schema) :
    (schema.conceal view).pointers ⊆ schema.pointers := by
  match schema with
  | .composite flags kind members =>
    rw [conceal, pointers, pointers]
    exact allPointers_concealAll_subset view members
  | .object flags properties =>
    rw [conceal, pointers, pointers]
    exact propertyPointers_concealProperties_subset view properties
  | .array flags (some items) =>
    rw [conceal, pointers, pointers]
    exact pointers_conceal_subset view items
  | .array _ none | .reference _ _ | .enumeration _ _ _ | .primitive _ _ | .unknown _ =>
    rw [conceal] <;> simp

theorem allPointers_concealAll_subset (view : View) (schemas : List Schema) :
    allPointers (concealAll view schemas) ⊆ allPointers schemas := by
  match schemas with
  | [] => exact List.nil_subset _
  | schema :: rest =>
    rw [concealAll, allPointers, allPointers]
    exact List.append_subset.mpr
      ⟨List.Subset.trans (pointers_conceal_subset view schema) (List.subset_append_left _ _),
        List.Subset.trans (allPointers_concealAll_subset view rest) (List.subset_append_right _ _)⟩

theorem propertyPointers_concealProperties_subset (view : View)
    (properties : List (Property Schema)) :
    propertyPointers (concealProperties view properties) ⊆ propertyPointers properties := by
  match properties with
  | [] => exact List.nil_subset _
  | ⟨name, required, schema⟩ :: rest =>
    have hrest := List.Subset.trans (propertyPointers_concealProperties_subset view rest)
      (List.subset_append_right schema.pointers _)
    rw [concealProperties, propertyPointers, propertyPointers]
    refine List.append_subset.mpr ⟨?_, hrest⟩
    split
    · exact List.nil_subset _
    · exact List.Subset.trans (pointers_conceal_subset view schema) (List.subset_append_left _ _)

end

end Schema

end OpenApi
