import OpenApi.Proofs.Endpoint.Masking

/-!
# When a name has one definition

The names of a description come from two sources: every component schema gives its own name, and a
name with a suffix for each view that hides something of it. The suffixes are of one length, so names
of variants never meet, and a name is defined twice exactly when it is that of a variant and declared
as well. `nodup_names_iff` says so, and where it is not the case a name is looked up to its one
definition.
-/

namespace OpenApi

/-! ## Suffixes -/

/-- Every view has a suffix of its own. -/
theorem View.suffix_injective {view view' : View} (h : view.suffix = view'.suffix) :
    view = view' := by
  cases view <;> cases view' <;> first | rfl | exact absurd h (by decide)

theorem View.length_suffix {view : View} {access : Access} (hv : view.hidden? = some access) :
    view.suffix.toList.length = 8 := by
  cases view with
  | full => cases hv
  | request | response => rfl

/-- The name of a variant tells its component and its view. -/
theorem View.eq_of_append_suffix {view view' : View} {access access' : Access}
    (hv : view.hidden? = some access) (hv' : view'.hidden? = some access') {name name' : String}
    (h : name ++ view.suffix = name' ++ view'.suffix) : name = name' ∧ view = view' := by
  have hlist := congrArg String.toList h
  rw [String.toList_append, String.toList_append] at hlist
  obtain ⟨hname, hsuffix⟩ := List.append_inj' hlist
    ((View.length_suffix hv).trans (View.length_suffix hv').symm)
  exact ⟨String.toList_injective hname, View.suffix_injective (String.toList_injective hsuffix)⟩

/-- A variant is called otherwise than its component. -/
theorem View.append_suffix_ne {view : View} {access : Access} (hv : view.hidden? = some access)
    (name : String) : name ++ view.suffix ≠ name := by
  intro h
  have hlength := congrArg (fun name => name.toList.length) h
  simp only [String.toList_append, List.length_append, View.length_suffix hv] at hlength
  omega

namespace Api

variable {api : Api}

/-! ## The names of one component -/

/-- A component schema has a variant of this name: its own name with the suffix of a view that hides
something of it. -/
def VariantName (api : Api) (component : String) (value : Json) (name : String) : Prop :=
  ∃ (view : View) (access : Access), view.hidden? = some access ∧
    api.document.holds access (.ofJson value) = true ∧ name = component ++ view.suffix

/-- The names of a component are its own and those of its variants. -/
theorem mem_names_namedTypes {component name : String} {value : Json} :
    name ∈ (api.namedTypes component (.ofJson value)).map NamedType.name ↔
      name = component ∨ api.VariantName component value name := by
  constructor
  · intro hm
    rw [namedTypes, List.map_cons, List.map_append, List.mem_cons, List.mem_append] at hm
    rcases hm with rfl | hm | hm
    · exact .inl rfl
    all_goals
      rw [namedTypes.variant] at hm
      split at hm
      · next hh => exact .inr ⟨_, _, rfl, hh, List.mem_singleton.mp hm⟩
      · simp at hm
  · rintro (rfl | ⟨view, access, hv, hh, rfl⟩)
    · exact List.mem_cons_self
    · exact List.mem_map.mpr ⟨_, variant_mem_namedTypes hv component hh, rfl⟩

/-- A component has each of its names once. -/
theorem nodup_names_namedTypes (component : String) (schema : Schema) :
    ((api.namedTypes component schema).map NamedType.name).Nodup := by
  have hread : View.request.hidden? = some .readOnly := rfl
  have hwrite : View.response.hidden? = some .writeOnly := rfl
  have hrequest := View.append_suffix_ne hread component
  have hresponse := View.append_suffix_ne hwrite component
  have hne : component ++ View.request.suffix ≠ component ++ View.response.suffix := by
    intro h
    obtain ⟨_, heq⟩ := View.eq_of_append_suffix hread hwrite h
    cases heq
  rw [namedTypes, namedTypes.variant, namedTypes.variant]
  split <;> split <;> simp [hne, hrequest.symm, hresponse.symm]

/-! ## The names of a description -/

/-- The name of some variant is declared as well. -/
def DeclaresVariant (api : Api) : Prop :=
  ∃ component value name, (component, value) ∈ api.document.schemas ∧
    api.VariantName component value name ∧ name ∈ api.document.schemas.names

/-- Two components that are declared once each and no variant of which is declared share no name. -/
theorem disjoint_names (hno : ¬api.DeclaresVariant) {component component' : String}
    {value value' : Json} (hne : component ≠ component')
    (hm : (component, value) ∈ api.document.schemas)
    (hm' : (component', value') ∈ api.document.schemas) :
    List.Disjoint ((api.namedTypes component (.ofJson value)).map NamedType.name)
      ((api.namedTypes component' (.ofJson value')).map NamedType.name) := by
  have hdeclared : component ∈ api.document.schemas.names := List.mem_map_of_mem hm
  have hdeclared' : component' ∈ api.document.schemas.names := List.mem_map_of_mem hm'
  intro name hname hname'
  rcases mem_names_namedTypes.mp hname with rfl | hvariant <;>
    rcases mem_names_namedTypes.mp hname' with rfl | hvariant'
  · exact hne rfl
  · exact hno ⟨component', value', _, hm', hvariant', hdeclared⟩
  · exact hno ⟨component, value, _, hm, hvariant, hdeclared'⟩
  · obtain ⟨view, access, hv, _, rfl⟩ := hvariant
    obtain ⟨view', access', hv', _, heq⟩ := hvariant'
    exact hne (View.eq_of_append_suffix hv hv' heq).1

/-- Where the names of a description are distinct, no name of a variant is declared. -/
theorem not_declaresVariant (hnames : (api.schemas.map NamedType.name).Nodup) :
    ¬api.DeclaresVariant := by
  rintro ⟨component, value, name, hm, hvariant, hdeclared⟩
  obtain ⟨⟨_, value'⟩, hm', rfl⟩ := List.mem_map.mp hdeclared
  have heq := component_unique hnames hm (mem_names_namedTypes.mpr (.inr hvariant)) hm'
    (mem_names_namedTypes.mpr (.inl rfl))
  cases heq
  obtain ⟨view, _, hv, _, hname⟩ := hvariant
  exact View.append_suffix_ne hv _ hname.symm

/-- The names of a description are distinct if no name of a variant is declared. -/
theorem nodup_names_of_not_declaresVariant (hd : api.document.schemas.names.Nodup)
    (hno : ¬api.DeclaresVariant) : (api.schemas.map NamedType.name).Nodup := by
  rw [schemas, List.map_flatMap, List.nodup_flatMap]
  refine ⟨fun entry _ => nodup_names_namedTypes entry.1 _, ?_⟩
  exact List.Pairwise.imp_of_mem (fun hm hm' hne => disjoint_names hno hne hm hm')
    (List.pairwise_map.mp hd)

/-- Looking a name up finds its definition where no name is defined twice. -/
theorem schema?_eq_of_nodup (description : Description)
    (hnames : (description.schemas.map NamedType.name).Nodup) {found : NamedType}
    (hm : found ∈ description.schemas) : description.schema? found.name = some found := by
  rw [Description.schema?]
  cases hf : description.schemas.find? (·.name = found.name) with
  | none => simpa using List.find?_eq_none.mp hf found hm
  | some other =>
      have hname : other.name = found.name := by simpa using List.find?_some hf
      rw [List.inj_on_of_nodup_map hnames (List.mem_of_find?_eq_some hf) hm hname]

/-- The names of a description are distinct if and only if none of its variants has the name of a
declared component, and then looking up a name finds the one definition that it has. -/
theorem nodup_names_iff (hd : api.document.schemas.names.Nodup) :
    ((api.schemas.map NamedType.name).Nodup ↔ ¬api.DeclaresVariant) ∧
      (¬api.DeclaresVariant → ∀ endpoints, ∀ found ∈ api.schemas,
        Description.schema? ⟨api.schemas, endpoints⟩ found.name = some found ∧
          ∀ other ∈ api.schemas, other.name = found.name → other = found) := by
  have hnodup : ¬api.DeclaresVariant → (api.schemas.map NamedType.name).Nodup :=
    nodup_names_of_not_declaresVariant hd
  refine ⟨⟨not_declaresVariant, hnodup⟩, fun hno endpoints found hm => ⟨?_, ?_⟩⟩
  · exact schema?_eq_of_nodup ⟨api.schemas, endpoints⟩ (hnodup hno) hm
  · intro other ho hname
    exact List.inj_on_of_nodup_map (hnodup hno) ho hm hname

/-- No variant of the pets is declared, and the one of a pet is found under its name. -/
theorem schema?_variant_pets :
    (Document.schemas ⟨"mem:/pets", petsRoot⟩).names.Nodup ∧
      ¬Api.DeclaresVariant ⟨⟨"mem:/pets", petsRoot⟩, {}⟩ ∧
      ∃ found ∈ Api.schemas ⟨⟨"mem:/pets", petsRoot⟩, {}⟩, found.name = "PetWritable" ∧
        Description.schema? ⟨Api.schemas ⟨⟨"mem:/pets", petsRoot⟩, {}⟩, []⟩ "PetWritable"
          = some found := by
  have hnames : (Api.schemas ⟨⟨"mem:/pets", petsRoot⟩, {}⟩).map NamedType.name
      = ["Friend", "FriendWritable", "Pet", "PetWritable"] := by decide +kernel
  have hd : (Document.schemas ⟨"mem:/pets", petsRoot⟩).names.Nodup := by decide
  obtain ⟨hiff, hfind⟩ := @nodup_names_iff ⟨⟨"mem:/pets", petsRoot⟩, {}⟩ hd
  have hno := hiff.mp (hnames ▸ by decide)
  have hmem : "PetWritable" ∈ (Api.schemas ⟨⟨"mem:/pets", petsRoot⟩, {}⟩).map NamedType.name := by
    rw [hnames]
    decide
  obtain ⟨found, hm, hname⟩ := List.mem_map.mp hmem
  exact ⟨hd, hno, found, hm, hname, hname ▸ (hfind hno [] found hm).1⟩

/-- A user with a read-only identifier, and beside it a component called as its variant is. -/
def usersRoot : Json :=
  .object [("openapi", .string "3.0.0"),
    ("components", .object [("schemas", .object [
      ("User", .object [("type", .string "object"), ("properties", .object [
        ("id", .object [("type", .string "integer"), ("readOnly", .bool true)]),
        ("name", .object [("type", .string "string")])])]),
      ("UserWritable", .object [("type", .string "string")])])])]

/-- The variant of the user and the component are two definitions of one name, and looking it up finds
the variant only. -/
theorem not_nodup_names_users :
    ∃ document, Document.ofTree "mem:/users" usersRoot = .ok document ∧
      ¬((Api.schemas ⟨document, {}⟩).map NamedType.name).Nodup ∧
      (Api.schemas ⟨document, {}⟩).map (fun found => (found.name, found.type.text))
        = [("User", "\x7b id?: number; name?: string \x7d"),
          ("UserWritable", "\x7b name?: string \x7d"), ("UserWritable", "string")] ∧
      (Description.schema? ⟨Api.schemas ⟨document, {}⟩, []⟩ "UserWritable").map (·.type.text)
        = some "\x7b name?: string \x7d" :=
  ⟨⟨"mem:/users", usersRoot⟩, rfl, by decide +kernel, by decide +kernel, by decide +kernel⟩

end Api

end OpenApi
