import OpenApi.Proofs.Bundle.Step

/-!
# The tables of a walk only grow

A walk records names, places and component schemas and never takes any of them back. `Progress.Sound`
is what holds between walks: no two targets share a name, and every name in use is taken.
`Progress.Grows` is what a walk does to the tables. A place is noted only for a target without a name
or for one that is being taken in under its own name, so a target that got a place first never gets
a name.

A free name is always found: one more candidate is tried than there are names taken.
-/

namespace OpenApi

/-! ## Free names -/

namespace Walk

theorem numbered_injective {wanted : String} {i j : Nat}
    (h : wanted ++ toString i = wanted ++ toString j) : i = j := by
  have hlist := congrArg String.toList h
  rw [String.toList_append, String.toList_append] at hlist
  have htext := String.toList_injective (List.append_cancel_left hlist)
  have hindex : some i = some j := by
    rw [← Pointer.index?_toString, ← Pointer.index?_toString, htext]
  injection hindex

theorem nodup_numbered (wanted : String) (count : Nat) :
    ((List.range count).map fun k => wanted ++ toString (k + 1)).Nodup := by
  refine List.Pairwise.map _ ?_ List.nodup_range
  intro i j hne h
  have := numbered_injective h
  omega

/-- A free name is not taken. -/
theorem freeName_notMem (taken : List String) (wanted : String) :
    freeName taken wanted ∉ taken := by
  unfold freeName
  split
  · next hc =>
      dsimp only
      cases hf : ((List.range (taken.length + 1)).map fun k => wanted ++ toString (k + 1)).find?
          (!taken.contains ·) with
      | some name =>
          have hfree := List.find?_some hf
          rw [Option.getD_some]
          simpa using hfree
      | none =>
          -- all candidates would be among fewer names
          have hall : ((List.range (taken.length + 1)).map fun k => wanted ++ toString (k + 1))
              ⊆ taken := by
            intro name hm
            have := List.find?_eq_none.mp hf name hm
            simpa using this
          have hle := (nodup_numbered wanted (taken.length + 1)).length_le_of_subset hall
          rw [List.length_map, List.length_range] at hle
          omega
  · next hc => simpa using hc

/-- A free name is the wanted one or a numbered one. -/
theorem freeName_eq_or (taken : List String) (wanted : String) :
    freeName taken wanted = wanted ∨
      ∃ k : Nat, freeName taken wanted = wanted ++ toString k := by
  unfold freeName
  split
  · dsimp only
    cases hf : ((List.range (taken.length + 1)).map fun k => wanted ++ toString (k + 1)).find?
        (!taken.contains ·) with
    | none => exact .inl rfl
    | some name =>
        obtain ⟨k, _, rfl⟩ := List.mem_map.mp (List.mem_of_find?_eq_some hf)
        exact .inr ⟨k + 1, rfl⟩
  · exact .inl rfl

end Walk

/-! ## Setting a member -/

namespace Members

theorem lookup_set (name other : String) (value : Json) (members : Members) :
    (set name value members).lookup other
      = if other = name then some value else members.lookup other :=
  lookup_of_sets (set name value) rfl (fun _ _ _ => rfl) other

end Members

theorem reference?_withReference {value : Json} {text : String} (new : String)
    (h : value.reference? = some text) : (value.withReference new).reference? = some new := by
  obtain ⟨members, rfl, _⟩ := Json.exists_members_of_reference? h
  show ((Members.set "$ref" (.string new) members).lookup "$ref").bind _ = _
  rw [Members.lookup_set, if_pos rfl]
  rfl

/-! ## Tables between walks -/

namespace Progress

/-- The tables of a walk are consistent. -/
structure Sound (s : Progress) : Prop where
  /-- No two targets share a name. -/
  injective : ∀ {a b name}, s.names.lookup a = some name → s.names.lookup b = some name → a = b
  /-- The name of a target is taken. -/
  named : ∀ {target name}, s.names.lookup target = some name → name ∈ s.taken
  /-- The name of a component schema that was taken in is taken. -/
  hoisted : ∀ {name schema}, s.hoisted.lookup name = some schema → name ∈ s.taken

/-- What a walk may do to the tables. -/
structure Grows (s s' : Progress) : Prop where
  /-- A target keeps its name. -/
  names : ∀ {target name}, s.names.lookup target = some name → s'.names.lookup target = some name
  /-- A place is never forgotten. -/
  places : s.places ⊆ s'.places
  /-- A target that has a place and no name never gets one. -/
  unnamed : ∀ {target pointer}, (target, pointer) ∈ s.places → s.names.lookup target = none →
    s'.names.lookup target = none
  /-- A component schema is never replaced. -/
  hoisted : ∀ {name schema}, s.hoisted.lookup name = some schema →
    s'.hoisted.lookup name = some schema
  /-- A name stays taken. -/
  taken : s.taken ⊆ s'.taken

theorem Grows.refl (s : Progress) : Grows s s :=
  ⟨id, List.Subset.refl _, fun _ h => h, id, List.Subset.refl _⟩

theorem Grows.trans {s₁ s₂ s₃ : Progress} (h₁ : Grows s₁ s₂) (h₂ : Grows s₂ s₃) : Grows s₁ s₃ where
  names h := h₂.names (h₁.names h)
  places := List.Subset.trans h₁.places h₂.places
  unnamed hp hn := h₂.unnamed (h₁.places hp) (h₁.unnamed hp hn)
  hoisted h := h₂.hoisted (h₁.hoisted h)
  taken := List.Subset.trans h₁.taken h₂.taken

variable {s s' : Progress} {target : Url} {pointer : Pointer} {name : String} {shelf : Shelf}

theorem Sound.withShelf (h : s.Sound) : (s.withShelf shelf).Sound :=
  ⟨h.injective, h.named, h.hoisted⟩

theorem Grows.withShelf (h : Grows s s') : Grows s (s'.withShelf shelf) :=
  ⟨h.names, h.places, h.unnamed, h.hoisted, h.taken⟩

theorem Sound.atPlace (h : s.Sound) : (s.atPlace target pointer).Sound :=
  ⟨h.injective, h.named, h.hoisted⟩

theorem Grows.atPlace : Grows s (s.atPlace target pointer) :=
  ⟨id, fun _ => List.mem_cons_of_mem _, fun _ h => h, id, List.Subset.refl _⟩

theorem lookup_withName (other : Url) :
    (s.withName target name).names.lookup other
      = if other = target then some name else s.names.lookup other := by
  rw [withName, List.lookup_cons]
  by_cases h : other = target
  · simp [h]
  · simp [beq_eq_false_iff_ne.mpr h, h]

theorem lookup_withSchema (schema : Json) (other : String) :
    (s.withSchema name schema).hoisted.lookup other
      = if other = name then some schema else s.hoisted.lookup other :=
  Members.lookup_set name other schema s.hoisted

/-- A name that is not taken can be given to a target. -/
theorem Sound.withName (h : s.Sound) (hfree : name ∉ s.taken) :
    (s.withName target name).Sound where
  injective := by
    intro a b found ha hb
    -- the new name is nobody's, so the targets are both the new one or both old
    rw [lookup_withName] at ha hb
    split at ha <;> split at hb
    · next hat hbt => rw [hat, hbt]
    · injection ha with ha
      exact absurd (ha ▸ h.named hb) hfree
    · injection hb with hb
      exact absurd (hb ▸ h.named ha) hfree
    · exact h.injective ha hb
  named := by
    intro other found hl
    rw [lookup_withName] at hl
    split at hl
    · injection hl with hl
      exact hl ▸ List.mem_cons_self
    · exact List.mem_cons_of_mem _ (h.named hl)
  hoisted hl := List.mem_cons_of_mem _ (h.hoisted hl)

/-- A target gets a name only if it has neither a name nor a place. -/
theorem Grows.withName (hn : s.names.lookup target = none)
    (hp : s.places.lookup target = none) : Grows s (s.withName target name) where
  names := by
    intro other found hl
    -- the target had no name that could be lost
    rw [lookup_withName, if_neg]
    · exact hl
    · rintro rfl
      rw [hn] at hl
      simp at hl
  places := List.Subset.refl _
  unnamed := by
    intro other place hm hl
    rw [lookup_withName, if_neg]
    · exact hl
    · rintro rfl
      exact lookup_eq_none_iff_notMem.mp hp (List.mem_map_of_mem hm)
  hoisted := id
  taken := fun _ => List.mem_cons_of_mem _

theorem Sound.withSchema {schema : Json} (h : s.Sound) (ht : name ∈ s.taken) :
    (s.withSchema name schema).Sound where
  injective := h.injective
  named := h.named
  hoisted := by
    intro other found hl
    rw [lookup_withSchema] at hl
    split at hl
    · next heq => exact heq ▸ ht
    · exact h.hoisted hl

theorem Grows.addSchema {schema : Json} (hfree : s.hoisted.lookup name = none) :
    Grows s (s.withSchema name schema) where
  names := id
  places := List.Subset.refl _
  unnamed _ h := h
  hoisted := by
    intro other found hl
    rw [lookup_withSchema, if_neg]
    · exact hl
    · rintro rfl
      rw [hfree] at hl
      simp at hl
  taken := List.Subset.refl _

/-- A component schema under a name that was free is a new one. -/
theorem Grows.withSchema {schema : Json} (h : Grows s s') (hs : s.Sound) (hfree : name ∉ s.taken) :
    Grows s (s'.withSchema name schema) where
  names := h.names
  places := h.places
  unnamed := h.unnamed
  hoisted := by
    intro other found hl
    rw [lookup_withSchema, if_neg]
    · exact h.hoisted hl
    · rintro rfl
      exact hfree (hs.hoisted hl)
  taken := h.taken

end Progress

end OpenApi
