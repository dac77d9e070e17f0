import OpenApi.Proofs.Bundle.Progress

/-!
# Successful walks as a relation

`Runs` relates what a walk is given to what it gives back, and the tables before to the tables
after. It has one constructor for each thing that a walk can do, so a property of all walks is one
induction, whatever the fuel and the shelf were. `runs_of_walk` says that it leaves no successful
walk out. `Replaced` is the part of it that concerns a single reference.

Values, items and members are parts of one kind here. A node is known by its path in the bundled
document, whose pointer the walk builds up.
-/

namespace OpenApi

/-- What a walk goes through: a value, items from an index on, or members. -/
inductive Part where
  | value (value : Json)
  | items (index : Nat) (rest : List Json)
  | members (rest : Members)

/-- The path to the component schema of a name. -/
def homePath (name : String) : Path := [.member "components", .member "schemas", .member name]

theorem ofPath_homePath (name : String) : Pointer.ofPath (homePath name) = Pointer.home name := rfl

/-- A walk through a part of the document `base`, standing at a path and a position, from one
progress to another. -/
inductive Runs (docs : Library) (rootUrl : Url) :
    Url → Path → Position → Part → Progress → Part → Progress → Prop where
  | scalar {base path position value s} (h : value.isScalar = true) :
      Runs docs rootUrl base path position (.value value) s (.value value) s
  | array {base path position items items' s s'}
      (h : Runs docs rootUrl base path position.item (.items 0 items) s (.items 0 items') s') :
      Runs docs rootUrl base path position (.value (.array items)) s (.value (.array items')) s'
  | object {base path position members members' s s'}
      (hr : (Json.object members).reference? = none)
      (h : Runs docs rootUrl base path position (.members members) s (.members members') s') :
      Runs docs rootUrl base path position
        (.value (.object members)) s (.value (.object members')) s'
  | noItems {base path position index s} :
      Runs docs rootUrl base path position (.items index []) s (.items index []) s
  | item {base path position index item item' rest rest' s₁ s₂ s₃}
      (hv : Runs docs rootUrl base (path ++ [.item index]) position (.value item) s₁
        (.value item') s₂)
      (hr : Runs docs rootUrl base path position (.items (index + 1) rest) s₂
        (.items (index + 1) rest') s₃) :
      Runs docs rootUrl base path position
        (.items index (item :: rest)) s₁ (.items index (item' :: rest')) s₃
  | noMembers {base path position s} :
      Runs docs rootUrl base path position (.members []) s (.members []) s
  | member {base path position name value value' rest rest' s₁ s₂ s₃}
      (hv : Runs docs rootUrl base (path ++ [.member name])
        (position.child (.ofPath path) name) (.value value) s₁ (.value value') s₂)
      (hr : Runs docs rootUrl base path position (.members rest) s₂ (.members rest') s₃) :
      Runs docs rootUrl base path position
        (.members ((name, value) :: rest)) s₁ (.members ((name, value') :: rest')) s₃
  | link {base path position value text target new s}
      (hr : value.reference? = some text) (ht : joinReference base text = .ok target)
      (hv : verdict rootUrl target (.ofPath path) position s = .link new) :
      Runs docs rootUrl base path position (.value value) s (.value (value.withReference new)) s
  | inlined {base path position value text target node value' shelf s s'}
      (hr : value.reference? = some text) (ht : joinReference base text = .ok target)
      (hv : verdict rootUrl target (.ofPath path) position s = .inline)
      (hn : docs.node? target = some node)
      (h : Runs docs rootUrl target.document path (.ofPointer (.ofPath path)) (.value node)
        ((s.atPlace target (.ofPath path)).withShelf shelf) (.value value') s') :
      Runs docs rootUrl base path position (.value value) s (.value value') s'
  | hoisted {base path position value text target wanted name node schema shelf s s'}
      (hr : value.reference? = some text) (ht : joinReference base text = .ok target)
      (hv : verdict rootUrl target (.ofPath path) position s = .hoist wanted)
      (hw : name = Walk.freeName s.taken wanted)
      (hn : docs.node? target = some node)
      (h : Runs docs rootUrl target.document (homePath name) .schema (.value node)
        ((s.withName target name).withShelf shelf) (.value schema) s') :
      Runs docs rootUrl base path position (.value value) s
        (.value (value.withReference ("#" ++ (Pointer.home name).text)))
        (s'.withSchema name schema)

/-! ## A walk, value by value -/

namespace Json

variable {onReference : OnReference} {pointer : Pointer} {position : Position}

theorem walk_reference {value : Json} {text : String} (h : value.reference? = some text) :
    value.walk onReference pointer position = onReference value text pointer position := by
  obtain ⟨members, rfl, _⟩ := exists_members_of_reference? h
  rw [walk, h]

theorem walk_object {members : Members} (h : (object members).reference? = none) :
    (object members).walk onReference pointer position
      = object <$> walkMembers onReference pointer position members := by
  rw [walk, h]

theorem walk_array (items : List Json) :
    (array items).walk onReference pointer position
      = array <$> walkItems onReference pointer position.item 0 items := by
  rw [walk]

theorem walk_scalar {value : Json} (h : value.isScalar = true) :
    value.walk onReference pointer position = pure value := by
  cases value with
  | object members => cases h
  | array items => cases h
  | _ => rw [walk] <;> intro _ heq <;> cases heq

end Json

/-! ## Every successful walk runs -/

section Walks

variable {source : Source} {docs : Library} {rootUrl base : Url}

/-- A walk of a node of a known document from tables that see the known documents: if it succeeds,
it runs, and sees them still. -/
def Sees (source : Source) (docs : Library) (rootUrl base : Url) (path : Path)
    (position : Position) (part part' : Part) (s s' : Progress) : Prop :=
  available source s.shelf = docs →
    Runs docs rootUrl base path position part s part' s' ∧ available source s'.shelf = docs

variable {onReference : OnReference}

/-- Every reference that is replaced with success runs. -/
def Answers (source : Source) (docs : Library) (rootUrl base : Url) (onReference : OnReference) :
    Prop :=
  ∀ {value text path position value' s s'}, value.reference? = some text →
    onReference value text (.ofPath path) position s = .ok value' s' →
    Sees source docs rootUrl base path position (.value value) (.value value') s s'

mutual

theorem sees_walk (href : Answers source docs rootUrl base onReference) (value : Json)
    {path : Path} {position : Position} {value' : Json} {s s' : Progress}
    (h : value.walk onReference (.ofPath path) position s = .ok value' s') :
    Sees source docs rootUrl base path position (.value value) (.value value') s s' := by
  intro hd
  cases value with
  | object members =>
      cases hr : (Json.object members).reference? with
      | some text =>
          rw [Json.walk_reference hr] at h
          exact href hr h hd
      | none =>
          rw [Json.walk_object hr, Walk.map_run] at h
          split at h
          · next members' s₁ hm =>
              cases h
              obtain ⟨hruns, hd'⟩ := sees_walkMembers href members hm hd
              exact ⟨.object hr hruns, hd'⟩
          · simp at h
  | array items =>
      rw [Json.walk_array, Walk.map_run] at h
      split at h
      · next items' s₁ hi =>
          cases h
          obtain ⟨hruns, hd'⟩ := sees_walkItems href items hi hd
          exact ⟨.array hruns, hd'⟩
      · simp at h
  | _ =>
      rw [Json.walk_scalar rfl] at h
      cases h
      exact ⟨.scalar rfl, hd⟩

theorem sees_walkItems (href : Answers source docs rootUrl base onReference) (items : List Json)
    {path : Path} {position : Position} {index : Nat}
    {items' : List Json} {s s' : Progress}
    (h : Json.walkItems onReference (.ofPath path) position index items s = .ok items' s') :
    Sees source docs rootUrl base path position (.items index items) (.items index items') s s' := by
  intro hd
  cases items with
  | nil =>
      unfold Json.walkItems at h
      cases h
      exact ⟨.noItems, hd⟩
  | cons item rest =>
      rw [Json.walkItems, Walk.bind_run, ← Pointer.ofPath_item] at h
      split at h
      · next item' s₁ hi =>
          rw [Walk.bind_run] at h
          split at h
          · next rest' s₂ hrest =>
              cases h
              obtain ⟨hitem, hd₁⟩ := sees_walk href item hi hd
              obtain ⟨hruns, hd₂⟩ := sees_walkItems href rest hrest hd₁
              exact ⟨.item hitem hruns, hd₂⟩
          · simp at h
      · simp at h

theorem sees_walkMembers (href : Answers source docs rootUrl base onReference)
    (members : List (String × Json)) {path : Path} {position : Position}
    {members' : Members} {s s' : Progress}
    (h : Json.walkMembers onReference (.ofPath path) position members s = .ok members' s') :
    Sees source docs rootUrl base path position (.members members) (.members members') s s' := by
  intro hd
  cases members with
  | nil =>
      unfold Json.walkMembers at h
      cases h
      exact ⟨.noMembers, hd⟩
  | cons entry rest =>
      obtain ⟨name, value⟩ := entry
      rw [Json.walkMembers, Walk.bind_run, ← Pointer.ofPath_member] at h
      split at h
      · next value' s₁ hv =>
          rw [Walk.bind_run] at h
          split at h
          · next rest' s₂ hrest =>
              cases h
              obtain ⟨hvalue, hd₁⟩ := sees_walk href value hv hd
              obtain ⟨hruns, hd₂⟩ := sees_walkMembers href rest hrest hd₁
              exact ⟨.member hvalue hruns, hd₂⟩
          · simp at h
      · simp at h

end

end Walks

section Fuel

variable {source : Source} {docs : Library} {rootUrl : Url}

/-- What is taken in is the node of its target, and it is walked. -/
theorem takeIn_run_ok {fuel : Nat} {base target : Url} {text : String} {pointer : Pointer}
    {position : Position} {value' : Json} {s s' : Progress}
    (hd : available source s.shelf = docs)
    (h : takeIn source rootUrl fuel base target text pointer position s = .ok value' s') :
    ∃ node shelf, docs.node? target = some node ∧ available source shelf = docs ∧
      node.walk (replaceReference source rootUrl fuel target.document) pointer position
        (s.withShelf shelf) = .ok value' s' := by
  obtain ⟨shelf, hshelf, hrun⟩ := Walk.target_run hd base target text
  rw [takeIn, Walk.bind_run, hrun] at h
  cases hn : docs.node? target with
  | none =>
      rw [hn] at h
      simp at h
  | some node =>
      rw [hn] at h
      exact ⟨node, shelf, rfl, hshelf, h⟩

/-- A reference that is replaced with success runs. -/
theorem sees_replaceReference (fuel : Nat) {base : Url} {value : Json} {text : String} {path : Path}
    {position : Position} {value' : Json} {s s' : Progress} (hr : value.reference? = some text)
    (h : replaceReference source rootUrl fuel base value text (.ofPath path) position s
      = .ok value' s') :
    Sees source docs rootUrl base path position (.value value) (.value value') s s' := by
  intro hd
  induction fuel generalizing base value text path position value' s s' with
  | zero =>
      unfold replaceReference at h
      cases h
  | succ fuel ih =>
      -- what is taken in is walked with less fuel, so all references in it run
      have hwalk : ∀ {target : Url} {node : Json} {path : Path} {position : Position}
          {value' : Json} {s s' : Progress},
          node.walk (replaceReference source rootUrl fuel target.document) (.ofPath path) position s
            = .ok value' s' →
          Sees source docs rootUrl target.document path position (.value node) (.value value') s s' :=
        fun h => sees_walk (fun hr h hd => ih hr h hd) _ h
      rw [replaceReference_run] at h
      cases ht : joinReference base text with
      | error error =>
          rw [ht] at h
          simp at h
      | ok target =>
          rw [ht] at h
          cases hv : verdict rootUrl target (.ofPath path) position s with
          | link new =>
              simp only [hv] at h
              cases h
              exact ⟨.link hr ht hv, hd⟩
          | inline =>
              simp only [hv] at h
              have hplace : available source (s.atPlace target (.ofPath path)).shelf = docs := hd
              obtain ⟨node, shelf, hn, hshelf, h⟩ := takeIn_run_ok hplace h
              obtain ⟨hruns, hd'⟩ := hwalk h hshelf
              exact ⟨.inlined hr ht hv hn hruns, hd'⟩
          | hoist wanted =>
              simp only [hv] at h
              split at h
              · next schema s₁ htake =>
                  cases h
                  have hname : available source
                      (s.withName target (Walk.freeName s.taken wanted)).shelf = docs := hd
                  obtain ⟨node, shelf, hn, hshelf, h⟩ := takeIn_run_ok hname htake
                  rw [← ofPath_homePath] at h
                  obtain ⟨hruns, hd'⟩ := hwalk h hshelf
                  exact ⟨.hoisted hr ht hv rfl hn hruns, hd'⟩
              · simp at h

/-- A walk that succeeds runs. -/
theorem runs_of_walk {fuel : Nat} {base : Url} {value : Json} {path : Path} {position : Position}
    {value' : Json} {s s' : Progress} (hd : available source s.shelf = docs)
    (h : value.walk (replaceReference source rootUrl fuel base) (.ofPath path) position s
      = .ok value' s') :
    Runs docs rootUrl base path position (.value value) s (.value value') s' :=
  (sees_walk (fun hr h => sees_replaceReference fuel hr h) value h hd).1

end Fuel

/-! ## Verdicts -/

/-- What is hoisted is external and has neither a name nor a place. -/
theorem verdict_eq_hoist {rootUrl target : Url} {pointer : Pointer} {position : Position}
    {s : Progress} {wanted : String} (h : verdict rootUrl target pointer position s = .hoist wanted) :
    target.document ≠ rootUrl ∧ s.names.lookup target = none ∧ s.places.lookup target = none ∧
      hoistName? target.document (target.fragment.getD "") position = some wanted := by
  unfold verdict at h
  split at h
  · simp at h
  · next hroot =>
      split at h
      · split at h <;> cases h
      · next hn =>
          split at h
          · simp at h
          · next hp =>
              split at h
              · simp at h
              · next found hw =>
                  cases h
                  exact ⟨hroot, hn, hp, hw⟩

/-- What is taken in on the spot is external, and it is either the target that the spot is the home
of, or has neither a name nor a place and no name to be hoisted under. -/
theorem verdict_eq_inline {rootUrl target : Url} {pointer : Pointer} {position : Position}
    {s : Progress} (h : verdict rootUrl target pointer position s = .inline) :
    target.document ≠ rootUrl ∧
      ((∃ name, s.names.lookup target = some name ∧ pointer = Pointer.home name ∧
          s.hoisted.lookup name = none) ∨
        (s.names.lookup target = none ∧ s.places.lookup target = none ∧
          hoistName? target.document (target.fragment.getD "") position = none)) := by
  unfold verdict at h
  split at h
  · simp at h
  · next hroot =>
      refine ⟨hroot, ?_⟩
      split at h
      · next name hn =>
          split at h
          · next ha => exact .inl ⟨name, hn, ha.1, Option.isNone_iff_eq_none.mp ha.2⟩
          · simp at h
      · next hn =>
          split at h
          · simp at h
          · next hp =>
              split at h
              · next hw => exact .inr ⟨hn, hp, hw⟩
              · simp at h

/-- A link leads into the root as written, to the component schema of its target, or to the place
where its target was taken in. -/
theorem verdict_eq_link {rootUrl target : Url} {pointer : Pointer} {position : Position}
    {s : Progress} {new : String} (h : verdict rootUrl target pointer position s = .link new) :
    (target.document = rootUrl ∧ new = "#" ++ target.fragment.getD "") ∨
      (target.document ≠ rootUrl ∧ ∃ name, s.names.lookup target = some name ∧
        ¬(pointer = Pointer.home name ∧ s.hoisted.lookup name = none) ∧
        new = "#" ++ (Pointer.home name).text) ∨
      (target.document ≠ rootUrl ∧ s.names.lookup target = none ∧
        ∃ place, s.places.lookup target = some place ∧ new = "#" ++ place.text) := by
  unfold verdict at h
  split at h
  · next hroot =>
      cases h
      exact .inl ⟨hroot, rfl⟩
  · next hroot =>
      split at h
      · next name hn =>
          split at h
          · simp at h
          · next ha =>
              cases h
              rw [Option.isNone_iff_eq_none] at ha
              exact .inr (.inl ⟨hroot, name, hn, ha, rfl⟩)
      · next hn =>
          split at h
          · next place hp =>
              cases h
              exact .inr (.inr ⟨hroot, hn, place, hp, rfl⟩)
          · split at h <;> cases h

/-! ## What comes of a reference -/

/-- What a walk leaves in the place of a reference to a target, by the verdict on it. -/
inductive Replaced (docs : Library) (rootUrl target : Url) (path : Path) (position : Position)
    (value : Json) (s : Progress) : Part → Progress → Prop where
  | link {new} (hv : verdict rootUrl target (.ofPath path) position s = .link new) :
      Replaced docs rootUrl target path position value s (.value (value.withReference new)) s
  | inlined {node value' shelf s'}
      (hv : verdict rootUrl target (.ofPath path) position s = .inline)
      (hn : docs.node? target = some node)
      (h : Runs docs rootUrl target.document path (.ofPointer (.ofPath path)) (.value node)
        ((s.atPlace target (.ofPath path)).withShelf shelf) (.value value') s') :
      Replaced docs rootUrl target path position value s (.value value') s'
  | hoisted {wanted name node schema shelf s'}
      (hv : verdict rootUrl target (.ofPath path) position s = .hoist wanted)
      (hw : name = Walk.freeName s.taken wanted)
      (hn : docs.node? target = some node)
      (h : Runs docs rootUrl target.document (homePath name) .schema (.value node)
        ((s.withName target name).withShelf shelf) (.value schema) s') :
      Replaced docs rootUrl target path position value s
        (.value (value.withReference ("#" ++ (Pointer.home name).text))) (s'.withSchema name schema)

section

variable {docs : Library} {rootUrl base target : Url} {path : Path} {position : Position}
  {value : Json} {text : String} {part : Part} {s s' : Progress}

/-- A Reference Object whose walk succeeds has a target, and it is replaced. -/
theorem Runs.exists_replaced
    (h : Runs docs rootUrl base path position (.value value) s part s')
    (hr : value.reference? = some text) :
    ∃ target, joinReference base text = .ok target ∧
      Replaced docs rootUrl target path position value s part s' := by
  cases h with
  | scalar h => cases hr.symm.trans (Json.reference?_of_isScalar h)
  | array => cases hr
  | object hr' => cases hr.symm.trans hr'
  | link hr' ht hv =>
      cases hr.symm.trans hr'
      exact ⟨_, ht, .link hv⟩
  | inlined hr' ht hv hn h =>
      cases hr.symm.trans hr'
      exact ⟨_, ht, .inlined hv hn h⟩
  | hoisted hr' ht hv hw hn h =>
      cases hr.symm.trans hr'
      exact ⟨_, ht, .hoisted hv hw hn h⟩

theorem Runs.replaced (h : Runs docs rootUrl base path position (.value value) s part s')
    (hr : value.reference? = some text) (ht : joinReference base text = .ok target) :
    Replaced docs rootUrl target path position value s part s' := by
  obtain ⟨found, hfound, hreplaced⟩ := h.exists_replaced hr
  cases ht.symm.trans hfound
  exact hreplaced

end

/-! ## What a run does to the tables -/

/-- A run keeps the tables consistent, and they only grow. -/
theorem Runs.sound_and_grows {docs : Library} {rootUrl base : Url} {path : Path}
    {position : Position} {part part' : Part} {s s' : Progress}
    (h : Runs docs rootUrl base path position part s part' s') (hs : s.Sound) :
    s'.Sound ∧ s.Grows s' := by
  induction h with
  | scalar | noItems | noMembers | link => exact ⟨hs, .refl _⟩
  | array _ ih => exact ih hs
  | object _ _ ih => exact ih hs
  | item _ _ ihv ihr | member _ _ ihv ihr =>
      obtain ⟨hs₁, hg₁⟩ := ihv hs
      obtain ⟨hs₂, hg₂⟩ := ihr hs₁
      exact ⟨hs₂, hg₁.trans hg₂⟩
  | inlined _ _ _ _ _ ih =>
      obtain ⟨hs₁, hg₁⟩ := ih hs.atPlace.withShelf
      exact ⟨hs₁, Progress.Grows.atPlace.withShelf.trans hg₁⟩
  | @hoisted _ _ _ _ _ target wanted name _ _ _ s _ _ _ hv hw _ _ ih =>
      -- the name is given before the walk of the schema, which is set after it
      obtain ⟨_, hn, hp, _⟩ := verdict_eq_hoist hv
      have hfree : name ∉ s.taken := hw ▸ Walk.freeName_notMem s.taken wanted
      obtain ⟨hs₁, hg₁⟩ := ih (hs.withName hfree).withShelf
      have htaken := hg₁.taken List.mem_cons_self
      have hname : s.Grows (s.withName target name) := .withName hn hp
      exact ⟨hs₁.withSchema htaken, (hname.withShelf.trans hg₁).withSchema hs hfree⟩

theorem Runs.sound {docs : Library} {rootUrl base : Url} {path : Path}
    {position : Position} {part part' : Part} {s s' : Progress}
    (h : Runs docs rootUrl base path position part s part' s') (hs : s.Sound) : s'.Sound :=
  (h.sound_and_grows hs).1

theorem Runs.grows {docs : Library} {rootUrl base : Url} {path : Path}
    {position : Position} {part part' : Part} {s s' : Progress}
    (h : Runs docs rootUrl base path position part s part' s') (hs : s.Sound) : s.Grows s' :=
  (h.sound_and_grows hs).2

/-- A run preserves what is preserved by giving a target a place or a name, as its verdict says, and by
setting a schema. -/
theorem Runs.preserves {docs : Library} {rootUrl base : Url} {path : Path} {position : Position}
    {part part' : Part} {s s' : Progress} {P : Progress → Prop}
    (h : Runs docs rootUrl base path position part s part' s')
    (hplace : ∀ {s target pointer position}, verdict rootUrl target pointer position s = .inline →
      P s → P (s.atPlace target pointer))
    (hname : ∀ {s target pointer position wanted name},
      verdict rootUrl target pointer position s = .hoist wanted → P s → P (s.withName target name))
    (hschema : ∀ {s name schema}, P s → P (s.withSchema name schema))
    (hshelf : ∀ {s shelf}, P s → P (s.withShelf shelf)) (hp : P s) : P s' := by
  induction h with
  | scalar | noItems | noMembers | link => exact hp
  | array _ ih => exact ih hp
  | object _ _ ih => exact ih hp
  | item _ _ ihv ihr | member _ _ ihv ihr => exact ihr (ihv hp)
  | inlined _ _ hv _ _ ih => exact ih (hshelf (hplace hv hp))
  | hoisted _ _ hv _ _ _ ih => exact hschema (ih (hshelf (hname hv hp)))

end OpenApi
