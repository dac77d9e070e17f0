import OpenApi.Proofs.Schema.Views

/-!
# Two documents that read a schema alike

Lowering asks a document two things about each pointer of a schema: whether its target admits null,
and whether the target holds what the view hides. Documents that answer both alike lower the schema
to the same type, whatever else they contain: `lower_congr`.

The second question is a search through the reference graph, and the graphs of two documents need not
be equal for it to end alike. It is enough that related schemas carry the flag together, and otherwise
have the same pointers, in any order, with related targets: `Matching.holds_eq`. Equality wherever the
references lead is one such relation: `holds_eq_of_agree`.
-/

namespace OpenApi

namespace Document

variable {doc doc' : Document} {access : Access}

/-! ## Related schemas hold the same flags -/

/-- A relation between schemas of two documents under which the search for a flag goes on alike. -/
structure Matching (doc doc' : Document) (access : Access) (Same : Schema → Schema → Prop) :
    Prop where
  carries : ∀ {schema schema'}, Same schema schema' →
    schema.carries access = schema'.carries access
  /-- A schema that carries the flag ends the search, so its pointers do not matter. -/
  pointers : ∀ {schema schema' pointer}, Same schema schema' → schema.carries access = false →
    (pointer ∈ schema.pointers ↔ pointer ∈ schema'.pointers)
  targets : ∀ {schema schema' pointer}, Same schema schema' → schema.carries access = false →
    pointer ∈ schema.pointers → Option.Rel Same (doc.schemaAt? pointer) (doc'.schemaAt? pointer)

theorem Matching.symm {Same : Schema → Schema → Prop} (h : Matching doc doc' access Same) :
    Matching doc' doc access fun schema schema' => Same schema' schema where
  carries hs := (h.carries hs).symm
  pointers hs hc := (h.pointers hs ((h.carries hs).trans hc)).symm
  targets {schema schema' pointer} hs hc hp := by
    have hc' := (h.carries hs).trans hc
    have hrel := h.targets hs hc' ((h.pointers hs hc').mpr hp)
    generalize doc'.schemaAt? pointer = found at hrel ⊢
    generalize doc.schemaAt? pointer = found' at hrel ⊢
    cases hrel with
    | some hrel => exact .some hrel
    | none => exact .none

/-- A chain of references to a schema with the flag is found in the other document as well. -/
theorem Matching.holds_of_chain {Same : Schema → Schema → Prop} (h : Matching doc doc' access Same)
    {start pointer : String} (hreach : Relation.ReflTransGen doc.Refers start pointer)
    {target : Schema} (ht : doc.schemaAt? pointer = some target)
    (hc : target.carries access = true) {schema schema' : Schema} (hs : Same schema schema')
    (hm : start ∈ schema.pointers) : doc'.holds access schema' = true := by
  induction hreach using Relation.ReflTransGen.head_induction_on generalizing schema schema' with
  | refl =>
      cases hown : schema.carries access with
      | true => exact holds_iff.mpr (.inl ((h.carries hs).symm.trans hown))
      | false =>
          have hm' : pointer ∈ schema'.pointers := (h.pointers hs hown).mp hm
          have hrel := h.targets hs hown hm
          rw [ht] at hrel
          generalize ht' : doc'.schemaAt? pointer = found at hrel
          cases hrel with
          | some hrel =>
              exact holds_of_mem_pointers hm' ht'
                (holds_iff.mpr (.inl ((h.carries hrel).symm.trans hc)))
  | @head start next hstep _ ih =>
      cases hown : schema.carries access with
      | true => exact holds_iff.mpr (.inl ((h.carries hs).symm.trans hown))
      | false =>
          have hm' : start ∈ schema'.pointers := (h.pointers hs hown).mp hm
          have hrel := h.targets hs hown hm
          -- the start of the chain designates a schema, since the chain goes on from it
          obtain ⟨found, hd, hnext⟩ := refers_iff.mp hstep
          rw [hd] at hrel
          generalize hd' : doc'.schemaAt? start = found' at hrel
          cases hrel with
          | some hrel => exact holds_of_mem_pointers hm' hd' (ih hrel hnext)

theorem Matching.holds_mono {Same : Schema → Schema → Prop} (h : Matching doc doc' access Same)
    {schema schema' : Schema} (hs : Same schema schema') (hh : doc.holds access schema = true) :
    doc'.holds access schema' = true := by
  rcases holds_iff.mp hh with hc | ⟨start, hm, pointer, target, hreach, ht, hc⟩
  · exact holds_iff.mpr (.inl ((h.carries hs).symm.trans hc))
  · exact h.holds_of_chain hreach ht hc hs hm

/-- Related schemas hold the flag together. -/
theorem Matching.holds_eq {Same : Schema → Schema → Prop} (h : Matching doc doc' access Same)
    {schema schema' : Schema} (hs : Same schema schema') :
    doc.holds access schema = doc'.holds access schema' :=
  Bool.eq_iff_iff.mpr ⟨h.holds_mono hs, h.symm.holds_mono hs⟩

/-! ## Documents that agree where the references of a schema lead -/

/-- The references of a schema lead to a pointer, at once or along further references. -/
def Reaches (doc : Document) (schema : Schema) (pointer : String) : Prop :=
  ∃ start ∈ schema.pointers, Relation.ReflTransGen doc.Refers start pointer

theorem reaches_of_mem {schema : Schema} {pointer : String} (h : pointer ∈ schema.pointers) :
    doc.Reaches schema pointer := ⟨pointer, h, .refl⟩

theorem Reaches.trans {schema target : Schema} {pointer next : String}
    (h : doc.Reaches schema pointer) (ht : doc.schemaAt? pointer = some target)
    (hn : doc.Reaches target next) : doc.Reaches schema next := by
  obtain ⟨start, hm, hreach⟩ := h
  obtain ⟨second, hsecond, hrest⟩ := hn
  have hstep : doc.Refers pointer second := refers_iff.mpr ⟨target, ht, hsecond⟩
  exact ⟨start, hm, (hreach.tail hstep).trans hrest⟩

/-- What the references of a schema lead to is among any pointers that are closed under them. -/
theorem Reaches.mem_of_closed {schema : Schema} {pointer : String} {pointers : List String}
    (h : doc.Reaches schema pointer) (hs : schema.pointers ⊆ pointers)
    (hclosed : ∀ origin ∈ pointers, doc.successors origin ⊆ pointers) : pointer ∈ pointers := by
  obtain ⟨start, hm, hreach⟩ := h
  induction hreach with
  | refl => exact hs hm
  | tail _ hnext ih => exact hclosed _ ih hnext

/-- Wherever the references of a schema lead, two documents have the same value. -/
def AgreeFrom (doc doc' : Document) (schema : Schema) : Prop :=
  ∀ {pointer}, doc.Reaches schema pointer → doc.resolve? pointer = doc'.resolve? pointer

theorem AgreeFrom.schemaAt?_eq {schema : Schema} (h : AgreeFrom doc doc' schema) {pointer : String}
    (hr : doc.Reaches schema pointer) : doc.schemaAt? pointer = doc'.schemaAt? pointer := by
  rw [schemaAt?, schemaAt?, h hr]

theorem AgreeFrom.target {schema target : Schema} (h : AgreeFrom doc doc' schema) {pointer : String}
    (hm : pointer ∈ schema.pointers) (ht : doc.schemaAt? pointer = some target) :
    AgreeFrom doc doc' target := by
  intro next hn
  exact h ((reaches_of_mem hm).trans ht hn)

theorem matching_of_agree (doc doc' : Document) (access : Access) :
    Matching doc doc' access fun schema schema' => schema = schema' ∧ AgreeFrom doc doc' schema where
  carries hs := by rw [hs.1]
  pointers hs _ := by rw [hs.1]
  targets {schema schema' pointer} hs _ hp := by
    obtain ⟨rfl, hagree⟩ := hs
    rw [← hagree.schemaAt?_eq (reaches_of_mem hp)]
    cases ht : doc.schemaAt? pointer with
    | none => exact .none
    | some target => exact .some ⟨rfl, hagree.target hp ht⟩

/-- Documents that agree where the references of a schema lead hold the same flags in it. -/
theorem holds_eq_of_agree {schema : Schema} (h : AgreeFrom doc doc' schema) :
    doc.holds access schema = doc'.holds access schema :=
  (matching_of_agree doc doc' access).holds_eq ⟨rfl, h⟩

end Document

/-! ## Lowering -/

namespace Api

variable {api api' : Api} {context : Context}

/-- Two readings give a pointer the same meaning in a view. -/
structure Alike (api api' : Api) (view : View) (pointer : String) : Prop where
  admitsNull : api.targetAdmitsNull pointer = api'.targetAdmitsNull pointer
  suffix : api.variantSuffix view pointer = api'.variantSuffix view pointer

mutual

/-- A type depends on the document only through what it says about the pointers of the schema. -/
theorem lower_congr (hs : api.settings = api'.settings) (schema : Schema)
    (h : ∀ pointer ∈ schema.pointers, Alike api api' context.view pointer) :
    lower api context schema = lower api' context schema := by
  match schema with
  | .reference flags pointer =>
    have hp := h pointer List.mem_cons_self
    rw [lower, lower, hp.admitsNull, referenceType, referenceType, hp.suffix, hs]
  | .composite flags kind members =>
    unfold Schema.pointers at h
    rw [lower, lower, lowerMembers_congr hs members h]
  | .array flags (some items) =>
    unfold Schema.pointers at h
    rw [lower, lower, lower_congr hs items h]
  | .object flags (property :: rest) =>
    unfold Schema.pointers at h
    rw [lower, lower, ← lowerProperties, ← lowerProperties,
      lowerProperties_congr hs (property :: rest) h]
  | .object flags [] => rw [lower, lower]
  | .enumeration _ [] _ => rw [lower, lower]
  | .enumeration _ (value :: values) _ => rw [lower, lower]
  | .array _ none => rw [lower, lower]
  | .primitive _ _ => rw [lower, lower]
  | .unknown _ => rw [lower, lower]

theorem lowerMembers_congr (hs : api.settings = api'.settings) (schemas : List Schema)
    (h : ∀ pointer ∈ Schema.allPointers schemas, Alike api api' context.view pointer) :
    lowerMembers api context schemas = lowerMembers api' context schemas := by
  match schemas with
  | [] => rw [lowerMembers, lowerMembers]
  | schema :: rest =>
    rw [Schema.allPointers, List.forall_mem_append] at h
    rw [lowerMembers, lowerMembers, lower_congr hs schema h.1, lowerMembers_congr hs rest h.2]

theorem lowerProperties_congr (hs : api.settings = api'.settings)
    (properties : List (Property Schema))
    (h : ∀ pointer ∈ Schema.propertyPointers properties, Alike api api' context.view pointer) :
    lowerProperties api context properties = lowerProperties api' context properties := by
  match properties with
  | [] => rw [lowerProperties, lowerProperties]
  | ⟨name, required, schema⟩ :: rest =>
    rw [Schema.propertyPointers, List.forall_mem_append] at h
    rw [lowerProperties, lowerProperties, lowerProperty, lowerProperty, hs,
      lower_congr hs schema h.1, lowerProperties_congr hs rest h.2]

end

/-- Documents that agree where the references of a schema lead give its pointers the same meaning. -/
theorem alike_of_agree {schema : Schema}
    (h : Document.AgreeFrom api.document api'.document schema) (view : View) {pointer : String}
    (hm : pointer ∈ schema.pointers) : Alike api api' view pointer := by
  have hreach : api.document.Reaches schema pointer := Document.reaches_of_mem hm
  refine ⟨?_, ?_⟩
  · rw [targetAdmitsNull, targetAdmitsNull, h hreach]
  · rw [variantSuffix, variantSuffix, ← h.schemaAt?_eq hreach]
    cases view.hidden? with
    | none => rfl
    | some access =>
        cases ht : api.document.schemaAt? pointer with
        | none => rfl
        | some target =>
            dsimp only
            rw [Document.holds_eq_of_agree (h.target hm ht)]

/-- Documents that agree where the references of a schema lead lower it to the same type. -/
theorem lower_eq_of_agree (hs : api.settings = api'.settings) {schema : Schema}
    (h : Document.AgreeFrom api.document api'.document schema) :
    lower api context schema = lower api' context schema :=
  lower_congr hs schema fun _ hm => alike_of_agree h context.view hm

end Api

end OpenApi
