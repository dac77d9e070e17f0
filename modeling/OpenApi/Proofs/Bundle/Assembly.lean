import OpenApi.Proofs.Bundle.Image

/-!
# Where the parts of a bundled document stand

Component schemas are added to the members of `components/schemas`, which may have to be created
first. Their names are new there, so nothing that was walked is lost: every value stands at its path
as before, but for the three objects on the way. `Addition` says what these may get: the root and its
components the one member that leads on, where it is missing, and the component schemas what was hoisted.
-/

namespace OpenApi

/-! ## Names of members -/

namespace Members

theorem names_set (name : String) (value : Json) (members : Members) :
    (set name value members).names
      = if name ∈ members.names then members.names else members.names ++ [name] := by
  induction members with
  | nil => rfl
  | cons entry rest ih =>
      obtain ⟨key, old⟩ := entry
      unfold set
      by_cases hk : key = name
      · subst hk
        rw [if_pos rfl, if_pos]
        · rfl
        · exact List.mem_cons_self
      · have hmem : name ∈ Members.names ((key, old) :: rest) ↔
            name ∈ Members.names rest := by
          show name ∈ key :: Members.names rest ↔ _
          rw [List.mem_cons]
          exact ⟨fun h => h.resolve_left (Ne.symm hk), .inr⟩
        rw [if_neg hk]
        show key :: (set name value rest).names = _
        rw [ih]
        by_cases hm : name ∈ Members.names rest
        · rw [if_pos hm, if_pos (hmem.mpr hm)]
          rfl
        · rw [if_neg hm, if_neg fun h => hm (hmem.mp h)]
          rfl

theorem names_prefix_set (name : String) (value : Json) (members : Members) :
    members.names <+: (set name value members).names := by
  rw [names_set]
  split
  · exact List.prefix_refl _
  · exact List.prefix_append _ _

theorem nodup_set {name : String} {value : Json} {members : Members} (h : members.names.Nodup) :
    (set name value members).names.Nodup := by
  rw [names_set]
  split
  · exact h
  · next hm =>
      rw [List.nodup_append]
      refine ⟨h, List.pairwise_singleton _ _, fun a ha b hb => ?_⟩
      rintro rfl
      rw [List.mem_singleton.mp hb] at ha
      exact hm ha

theorem mem_names_of_lookup {members : Members} {name : String} {value : Json}
    (h : members.lookup name = some value) : name ∈ members.names :=
  List.mem_map_of_mem (f := Prod.fst) (mem_of_lookup h)

theorem exists_lookup_of_mem_names {members : Members} {name : String} (h : name ∈ members.names) :
    ∃ value, members.lookup name = some value := by
  obtain ⟨entry, hm, rfl⟩ := List.mem_map.mp h
  exact exists_lookup_of_mem hm

/-- Members with each of some others set in turn. -/
def setAll (more members : Members) : Members :=
  more.foldl (fun members (name, value) => set name value members) members

theorem lookup_setAll {more : Members} (hn : more.names.Nodup) (members : Members) (name : String) :
    (setAll more members).lookup name = (more.lookup name).or (members.lookup name) := by
  induction more generalizing members with
  | nil => rfl
  | cons entry rest ih =>
      obtain ⟨key, value⟩ := entry
      obtain ⟨hfresh, hrest⟩ := List.nodup_cons.mp hn
      show (setAll rest (set key value members)).lookup name = _
      rw [ih hrest, lookup_set, List.lookup_cons]
      by_cases h : name = key
      · subst h
        have hnone : rest.lookup name = none := lookup_eq_none_iff_notMem.mpr hfresh
        rw [hnone, if_pos rfl, beq_self_eq_true]
        rfl
      · rw [if_neg h, beq_eq_false_iff_ne.mpr h]

theorem names_prefix_setAll (more members : Members) :
    members.names <+: (setAll more members).names := by
  induction more generalizing members with
  | nil => exact List.prefix_refl _
  | cons entry rest ih =>
      exact (names_prefix_set entry.1 entry.2 members).trans (ih _)

/-- Extending the object that a member holds changes that member only. -/
theorem extend_eq_ok {name : String} {fault : ParseFault} {change : Members → Except Error Members}
    {members members' : Members} (h : extend name fault change members = .ok members') :
    ∃ found found', change found = .ok found' ∧
      (members.lookup name = some (.object found) ∨ members.lookup name = none ∧ found = []) ∧
      members' = set name (.object found') members := by
  unfold extend at h
  split at h
  · next hl =>
      cases hc : change [] with
      | error error =>
          rw [hc] at h
          cases h
      | ok found' =>
          rw [hc] at h
          cases h
          exact ⟨[], found', hc, .inr ⟨hl, rfl⟩, rfl⟩
  · next found hl =>
      cases hc : change found with
      | error error =>
          rw [hc] at h
          cases h
      | ok found' =>
          rw [hc] at h
          cases h
          exact ⟨found, found', hc, .inl hl, rfl⟩
  · simp at h

/-- A member that holds an object, or nothing, can be extended if the change succeeds. -/
theorem exists_extend_eq_ok {name : String} {fault : ParseFault}
    {change : Members → Except Error Members} {members : Members}
    (hempty : ∃ found, change [] = .ok found)
    (hfound : ∀ {value}, members.lookup name = some value →
      ∃ found found', value = .object found ∧ change found = .ok found') :
    ∃ members', extend name fault change members = .ok members' := by
  unfold extend
  cases hl : members.lookup name with
  | none =>
      obtain ⟨found, hc⟩ := hempty
      exact ⟨_, by rw [hc]; rfl⟩
  | some value =>
      obtain ⟨found, found', rfl, hc⟩ := hfound hl
      dsimp only
      exact ⟨_, by rw [hc]; rfl⟩

end Members

/-- What a walk took in has a name of its own each. -/
theorem Runs.nodup_hoisted {docs : Library} {rootUrl base : Url} {path : Path} {position : Position}
    {part part' : Part} {s s' : Progress}
    (h : Runs docs rootUrl base path position part s part' s') (hn : s.hoisted.names.Nodup) :
    s'.hoisted.names.Nodup := by
  refine h.preserves (P := fun s => s.hoisted.names.Nodup) ?_ ?_ ?_ ?_ hn
  · exact fun _ hn => hn
  · exact fun _ hn => hn
  · exact Members.nodup_set
  · exact fun hn => hn

theorem Walked.nodup_hoisted {docs : Library} {url : Url} {root walked : Json}
    {start finish : Progress} (hb : Walked docs url root walked start finish) :
    finish.hoisted.names.Nodup := by
  apply hb.runs.nodup_hoisted
  rw [hb.hoisted]
  exact List.nodup_nil

/-! ## Adding component schemas -/

/-- The objects that may get more members. -/
def spare : List Path :=
  [[], [.member "components"], [.member "components", .member "schemas"]]

/-- What bundling may add to the names of the object at a path: component schemas at their place, and
the member that leads there where it is missing. -/
inductive Addition (names : List String) : Path → List String → Prop where
  | nothing {path} : Addition names path []
  | components (h : "components" ∉ names) : Addition names [] ["components"]
  | schemas (h : "schemas" ∉ names) : Addition names [.member "components"] ["schemas"]
  | hoisted {added} : Addition names [.member "components", .member "schemas"] added

/-- Adding component schemas sets them in the object at `components/schemas`. -/
theorem addSchemas_eq_ok {hoisted : Members} {walked bundled : Json}
    (h : addSchemas hoisted walked = .ok bundled) :
    ∃ members components schemas,
      walked = .object members ∧
      (members.lookup "components" = some (.object components) ∨
        members.lookup "components" = none ∧ components = []) ∧
      (components.lookup "schemas" = some (.object schemas) ∨
        components.lookup "schemas" = none ∧ schemas = []) ∧
      bundled = .object (Members.set "components"
        (.object (Members.set "schemas" (.object (Members.setAll hoisted schemas)) components))
        members) := by
  cases walked with
  | object members =>
      have hextend : ∃ members', Members.extend "components" .componentsNotObject
          (Members.extend "schemas" .schemasNotObject fun schemas =>
            .ok (Members.setAll hoisted schemas)) members = .ok members' ∧
          bundled = .object members' := by
        unfold addSchemas at h
        change (Members.extend "components" .componentsNotObject
          (Members.extend "schemas" .schemasNotObject fun schemas =>
            .ok (Members.setAll hoisted schemas)) members).map Json.object = .ok bundled at h
        cases he : Members.extend "components" .componentsNotObject
          (Members.extend "schemas" .schemasNotObject fun schemas =>
            .ok (Members.setAll hoisted schemas)) members with
        | error error =>
            rw [he] at h
            cases h
        | ok members' =>
            rw [he] at h
            cases h
            exact ⟨members', rfl, rfl⟩
      -- two extensions, one inside the other
      obtain ⟨members', he, rfl⟩ := hextend
      obtain ⟨components, components', hc, hcomponents, rfl⟩ := Members.extend_eq_ok he
      obtain ⟨schemas, schemas', hs, hschemas, rfl⟩ := Members.extend_eq_ok hc
      cases hs
      exact ⟨members, components, schemas, rfl, hcomponents, hschemas, rfl⟩
  | _ => cases h

/-- Component schemas can be added where the root, its components and its component schemas are
objects. -/
theorem exists_assembled {hoisted : Members} {walked : Json}
    (h : ∀ {path value}, path ∈ spare → walked.at? path = some value →
      ∃ members, value = .object members) : ∃ bundled, assembled hoisted walked = .ok bundled := by
  unfold assembled
  split
  · exact ⟨walked, rfl⟩
  · obtain ⟨members, rfl⟩ := h List.mem_cons_self (Json.at?_nil walked)
    have hextend : ∃ members', Members.extend "components" .componentsNotObject
        (Members.extend "schemas" .schemasNotObject fun schemas =>
          .ok (Members.setAll hoisted schemas)) members = .ok members' := by
      refine Members.exists_extend_eq_ok (Members.exists_extend_eq_ok ⟨_, rfl⟩ ?_) ?_
      · intro value hl
        cases hl
      · intro components hc
        have hat : (Json.object members).at? [.member "components"] = some components :=
          Json.at?_member (Json.at?_nil _) hc
        obtain ⟨found, rfl⟩ := h (by decide) hat
        have hinner : ∃ found', Members.extend "schemas" .schemasNotObject (fun schemas =>
            .ok (Members.setAll hoisted schemas)) found = .ok found' := by
          refine Members.exists_extend_eq_ok ⟨_, rfl⟩ fun {schemas} hs => ?_
          obtain ⟨declared, rfl⟩ := h (by decide) (Json.at?_member hat hs)
          exact ⟨declared, _, rfl, rfl⟩
        obtain ⟨found', hfound⟩ := hinner
        exact ⟨found, found', rfl, hfound⟩
    obtain ⟨members', he⟩ := hextend
    refine ⟨.object members', ?_⟩
    rw [addSchemas]
    change (Members.extend "components" .componentsNotObject
      (Members.extend "schemas" .schemasNotObject fun schemas =>
        .ok (Members.setAll hoisted schemas)) members).map Json.object = _
    rw [he]
    rfl

theorem at?_set (name : String) (value : Json) (members : Members) (rest : Path) :
    (Json.object (Members.set name value members)).at? (.member name :: rest) = value.at? rest := by
  show ((Members.set name value members).lookup name).bind _ = _
  rw [Members.lookup_set, if_pos rfl, Option.bind_some]

/-- Below an object that a member holds, or that is made where there is no such member, stands what
stands in the object. -/
theorem at?_below_member {key : String} {inner outer : Members} {rest : Path}
    (hl : outer.lookup key = some (.object inner) ∨ outer.lookup key = none ∧ inner = [])
    (hne : rest ≠ []) :
    (Json.object outer).at? (.member key :: rest) = (Json.object inner).at? rest := by
  rw [Json.at?_cons, Json.step?]
  rcases hl with hl | ⟨hl, rfl⟩
  · rw [hl, Option.bind_some]
  · rw [hl, Option.bind_none]
    cases rest with
    | nil => exact absurd rfl hne
    | cons step rest => cases step <;> rfl

/-- Setting a member leaves what does not stand below it. -/
theorem at?_set_of_ne {name key : String} (value : Json) (members : Members) (rest : Path)
    (hne : name ≠ key) :
    (Json.object (Members.set key value members)).at? (.member name :: rest)
      = (Json.object members).at? (.member name :: rest) := by
  show ((Members.set key value members).lookup name).bind _ = (members.lookup name).bind _
  rw [Members.lookup_set, if_neg hne]

/-- A component schema of the bundled document is what was hoisted under its name, or else what the
walk left there. -/
theorem at?_homePath_assembled {hoisted : Members} {walked bundled : Json}
    (hn : hoisted.names.Nodup) (hb : assembled hoisted walked = .ok bundled) (name : String) :
    bundled.at? (homePath name) = (hoisted.lookup name).or (walked.at? (homePath name)) := by
  unfold assembled at hb
  split at hb
  · next hempty =>
      cases hb
      rw [List.isEmpty_iff.mp hempty]
      rfl
  · obtain ⟨members, components, schemas, rfl, hcomponents, hschemas, rfl⟩ := addSchemas_eq_ok hb
    rw [homePath, at?_set, at?_set, at?_below_member hcomponents (by simp),
      at?_below_member hschemas (by simp)]
    show ((Members.setAll hoisted schemas).lookup name).bind _ = _
    rw [Members.lookup_setAll hn]
    show _ = (hoisted.lookup name).or ((schemas.lookup name).bind (·.at? []))
    cases hoisted.lookup name with
    | some schema => rfl
    | none => rfl

/-- What stands neither on the way to the component schemas nor below the home of one that was hoisted
is what the walk left there. -/
theorem at?_assembled_of_apart {hoisted : Members} {walked bundled : Json}
    (hn : hoisted.names.Nodup) (hb : assembled hoisted walked = .ok bundled) {path : Path}
    (hspare : path ∉ spare)
    (hfree : ∀ {name below}, path = homePath name ++ below → hoisted.lookup name = none) :
    bundled.at? path = walked.at? path := by
  unfold assembled at hb
  split at hb
  · cases hb
    rfl
  · obtain ⟨members, components, schemas, rfl, hcomponents, hschemas, rfl⟩ := addSchemas_eq_ok hb
    -- down the path, as long as it leads to the component schemas
    match path with
    | [] => exact absurd (by decide) hspare
    | .item index :: rest => rfl
    | .member first :: rest =>
      by_cases hfirst : first = "components"
      · subst hfirst
        have hrest : rest ≠ [] := by
          rintro rfl
          exact hspare (by decide)
        rw [at?_set, at?_below_member hcomponents hrest]
        match rest with
        | [] => exact absurd rfl hrest
        | .item index :: rest => rfl
        | .member second :: rest =>
          by_cases hsecond : second = "schemas"
          · subst hsecond
            have hrest : rest ≠ [] := by
              rintro rfl
              exact hspare (by decide)
            rw [at?_set, at?_below_member hschemas hrest]
            match rest with
            | [] => exact absurd rfl hrest
            | .item index :: rest => rfl
            | .member name :: rest =>
              show ((Members.setAll hoisted schemas).lookup name).bind _
                = (schemas.lookup name).bind _
              have hnone : hoisted.lookup name = none := hfree rfl
              rw [Members.lookup_setAll hn, hnone, Option.none_or]
          · exact at?_set_of_ne _ _ _ hsecond
      · exact at?_set_of_ne _ _ _ hfirst

/-! ## Objects that get more members -/

/-- Setting a member adds its name if that is new. -/
theorem exists_names_set (name : String) (value : Json) (members : Members) :
    (Members.set name value members).names = members.names ∨
      name ∉ members.names ∧ (Members.set name value members).names = members.names ++ [name] := by
  rw [Members.names_set]
  by_cases h : name ∈ members.names
  · simp [h]
  · simp [h]

/-- What adding component schemas does to the members of an object: it sets the member on the way to
them, or the schemas themselves. -/
inductive Extended (hoisted : Members) : Path → Members → Members → Prop where
  | components {inner members} :
      Extended hoisted [] members (Members.set "components" inner members)
  | schemas {inner members} :
      Extended hoisted [.member "components"] members (Members.set "schemas" inner members)
  | hoisted {members} :
      Extended hoisted [.member "components", .member "schemas"] members
        (Members.setAll hoisted members)

/-- An object on the way to the component schemas stays what the walk left, or is extended. -/
theorem exists_extended_assembled {hoisted : Members} {walked bundled : Json}
    (hb : assembled hoisted walked = .ok bundled) {path : Path} (hspare : path ∈ spare)
    {value : Json} (ha : walked.at? path = some value) :
    bundled.at? path = some value ∨
      ∃ members members', value = .object members ∧ bundled.at? path = some (.object members') ∧
        Extended hoisted path members members' := by
  unfold assembled at hb
  split at hb
  · cases hb
    exact .inl ha
  · obtain ⟨members, components, schemas, rfl, hcomponents, hschemas, rfl⟩ := addSchemas_eq_ok hb
    simp only [spare, List.mem_cons, List.not_mem_nil, or_false] at hspare
    -- the root, its components and its component schemas each get the member below them
    rcases hspare with rfl | rfl | rfl
    · cases ha
      exact .inr ⟨_, _, rfl, rfl, .components⟩
    · rw [Json.at?_cons, Option.bind_eq_some_iff] at ha
      obtain ⟨found, hfound, ha⟩ := ha
      cases ha
      rcases hcomponents with hobject | ⟨hnone, _⟩
      · cases hobject.symm.trans hfound
        exact .inr ⟨_, _, rfl, at?_set _ _ _ _, .schemas⟩
      · cases hnone.symm.trans hfound
    · rw [at?_below_member hcomponents (by simp), Json.at?_cons, Option.bind_eq_some_iff] at ha
      obtain ⟨found, hfound, ha⟩ := ha
      cases ha
      rcases hschemas with hobject | ⟨hnone, _⟩
      · cases hobject.symm.trans hfound
        refine .inr ⟨_, Members.setAll hoisted schemas, rfl, ?_, .hoisted⟩
        rw [at?_set, at?_set]
        rfl
      · cases hnone.symm.trans hfound

theorem reference?_set {name : String} {value : Json} {members : Members} (h : name ≠ "$ref") :
    (Json.object (Members.set name value members)).reference? = (Json.object members).reference? := by
  show ((Members.set name value members).lookup "$ref").bind _ = _
  rw [Members.lookup_set, if_neg (Ne.symm h)]
  rfl

section

variable {hoisted members members' : Members} {path : Path}

theorem Extended.exists_addition (h : Extended hoisted path members members') :
    ∃ added, Addition members.names path added ∧ members'.names = members.names ++ added := by
  cases h with
  | components =>
      rcases exists_names_set "components" _ members with h | ⟨hnew, h⟩
      · exact ⟨[], .nothing, h.trans (List.append_nil _).symm⟩
      · exact ⟨_, .components hnew, h⟩
  | schemas =>
      rcases exists_names_set "schemas" _ members with h | ⟨hnew, h⟩
      · exact ⟨[], .nothing, h.trans (List.append_nil _).symm⟩
      · exact ⟨_, .schemas hnew, h⟩
  | hoisted =>
      obtain ⟨added, hadded⟩ := Members.names_prefix_setAll hoisted members
      exact ⟨added, .hoisted, hadded.symm⟩

/-- Only a schema that is added under the name `$ref` changes whether an object is a Reference Object. -/
theorem Extended.reference?_eq (h : Extended hoisted path members members')
    (hn : hoisted.names.Nodup)
    (hnew : path = [.member "components", .member "schemas"] → hoisted.lookup "$ref" = none) :
    (Json.object members').reference? = (Json.object members).reference? := by
  cases h with
  | components => exact reference?_set (by decide)
  | schemas => exact reference?_set (by decide)
  | hoisted =>
      show ((Members.setAll hoisted members).lookup "$ref").bind _ = (members.lookup "$ref").bind _
      rw [Members.lookup_setAll hn, hnew rfl, Option.none_or]

/-- No object becomes a Reference Object if no text is added under the name `$ref`. -/
theorem Extended.reference?_eq_none (h : Extended hoisted path members members')
    (hn : hoisted.names.Nodup) (hm : ∀ text, hoisted.lookup "$ref" ≠ some (.string text))
    (hr : (Json.object members).reference? = none) : (Json.object members').reference? = none := by
  cases h with
  | components => exact (reference?_set (by decide)).trans hr
  | schemas => exact (reference?_set (by decide)).trans hr
  | hoisted =>
      show ((Members.setAll hoisted members).lookup "$ref").bind _ = none
      rw [Members.lookup_setAll hn]
      cases hl : hoisted.lookup "$ref" with
      | none => exact hr
      | some value =>
          cases value with
          | string text => exact absurd hl (hm text)
          | _ => rfl

end

/-! ## Values that stand in the bundled document -/

/-- An object at a path with the members of another and those that are added there. A Reference Object
keeps its text, and another object becomes none unless a text is added under the name `$ref`. -/
inductive Wider (hoisted : Members) (path : Path) : Json → Json → Prop where
  | object {members members' : Members} {added : List String}
      (ha : Addition members.names path added) (hn : members'.names = members.names ++ added)
      (hkeep : ∀ {text}, (Json.object members).reference? = some text →
        (Json.object members').reference? = some text)
      (hnone : (∀ text, hoisted.lookup "$ref" ≠ some (.string text)) →
        (Json.object members).reference? = none → (Json.object members').reference? = none) :
      Wider hoisted path (.object members) (.object members')

section

variable {hoisted : Members} {path : Path} {value value' : Json}

theorem Wider.reference?_eq_some {text : String} (h : Wider hoisted path value value')
    (hr : value.reference? = some text) : value'.reference? = some text := by
  cases h with
  | object _ _ hkeep _ => exact hkeep hr

theorem Wider.reference?_eq_none (h : Wider hoisted path value value')
    (hm : ∀ text, hoisted.lookup "$ref" ≠ some (.string text)) (hr : value.reference? = none) :
    value'.reference? = none := by
  cases h with
  | object _ _ _ hnone => exact hnone hm hr

theorem Extended.wider {members members' : Members} (h : Extended hoisted path members members')
    (hn : hoisted.names.Nodup)
    (hfresh : path = [.member "components", .member "schemas"] →
      ∀ {name}, name ∈ members.names → hoisted.lookup name = none) :
    Wider hoisted path (.object members) (.object members') := by
  obtain ⟨added, ha, hnames⟩ := h.exists_addition
  refine .object ha hnames (fun hr => ?_) (h.reference?_eq_none hn)
  obtain ⟨_, heq, hl⟩ := Json.exists_members_of_reference? hr
  cases heq
  exact (h.reference?_eq hn fun hpath => hfresh hpath (Members.mem_names_of_lookup hl)).trans hr

/-- Everything that stands in what a walk made stands at the same path of the bundled document. -/
theorem at?_assembled {walked bundled : Json} (hn : hoisted.names.Nodup)
    (hb : assembled hoisted walked = .ok bundled)
    (hfresh : ∀ {schemas name}, walked.at? [.member "components", .member "schemas"]
      = some (.object schemas) → name ∈ Members.names schemas → hoisted.lookup name = none)
    (h : Stands hoisted (.value walked) [] path value) :
    ∃ value', bundled.at? path = some value' ∧ (value' = value ∨ Wider hoisted path value value') := by
  rcases h with ⟨rest, rfl, ha⟩ | ⟨name, rest, schema, rfl, hl, ha⟩
  · change walked.at? path = some value at ha
    by_cases hspare : path ∈ spare
    · rcases exists_extended_assembled hb hspare ha with hsame | ⟨members, members', rfl, hat, hext⟩
      · exact ⟨value, hsame, .inl rfl⟩
      · refine ⟨_, hat, .inr (hext.wider hn ?_)⟩
        rintro rfl name hm
        exact hfresh ha hm
    · refine ⟨value, (at?_assembled_of_apart hn hb hspare ?_).trans ha, .inl rfl⟩
      -- a component schema that the walk left is none that was hoisted
      rintro name below rfl
      have hsplit : homePath name ++ below
          = [.member "components", .member "schemas"] ++ (.member name :: below) := rfl
      rw [hsplit, Json.at?_append, Option.bind_eq_some_iff] at ha
      obtain ⟨node, hnode, ha⟩ := ha
      obtain ⟨child, hc, _⟩ := Option.bind_eq_some_iff.mp ha
      cases node with
      | object schemas => exact hfresh hnode (Members.mem_names_of_lookup hc)
      | _ => cases hc
  · refine ⟨value, ?_, .inl rfl⟩
    rw [Json.at?_append, at?_homePath_assembled hn hb, hl]
    exact ha

end

end OpenApi
