import OpenApi.Proofs.Bundle.Assembly

/-!
# Adding what was hoisted destroys no schema

Names to hoist under are chosen apart from the names that the root declares before the walk, and what
was hoisted is added to the object at `components/schemas` after the walk. The two agree if the walk
brings no names into that object. It does so only where the root, its components or its component
schemas are taken in from another document, which `Library.OwnSchemas` excludes. The walk of any other
value keeps its names: its members are walked, or it is a Reference Object that gets another text
and keeps what stands beside it.
-/

namespace OpenApi

/-! ## Two optional values -/

theorem Option.Rel.mono {α β : Type} {r r' : α → β → Prop} {a : Option α} {b : Option β}
    (h : Option.Rel r a b) (himp : ∀ {x y}, r x y → r' x y) : Option.Rel r' a b := by
  cases h with
  | none => exact .none
  | some hr => exact .some (himp hr)

theorem Option.Rel.isSome_eq {α β : Type} {r : α → β → Prop} {a : Option α} {b : Option β}
    (h : Option.Rel r a b) : b.isSome = a.isSome := by
  cases h <;> rfl

/-! ## Values that are not taken in -/

/-- A value of the document `base` is not taken in from a document other than the root. -/
def Own (rootUrl base : Url) (value : Json) : Prop :=
  ∀ ⦃text target⦄, value.reference? = some text → joinReference base text = .ok target →
    target.document = rootUrl

/-- What a walk left of a value: the outcome of its own walk, or the value as it was, if that stands
beside the text of a reference. -/
def Past (docs : Library) (rootUrl base : Url) (path : Path) (value value' : Json) : Prop :=
  value' = value ∨
    ∃ position s s', Runs docs rootUrl base path position (.value value) s (.value value') s'

section

variable {docs : Library} {rootUrl base : Url} {path : Path} {position : Position}
  {s s' : Progress}

/-- A walk keeps the names of members and walks their values. -/
theorem Runs.members_lookup {members members' : Members}
    (h : Runs docs rootUrl base path position (.members members) s (.members members') s')
    (name : String) :
    Option.Rel (Past docs rootUrl base (path ++ [.member name]))
      (members.lookup name) (members'.lookup name) := by
  induction members generalizing members' s with
  | nil =>
      cases h
      exact .none
  | cons entry rest ih =>
      cases h with
      | member hv hr =>
          rw [List.lookup_cons, List.lookup_cons]
          split
          · next heq =>
              rw [beq_iff_eq] at heq
              subst heq
              exact .some (.inr ⟨_, _, _, hv⟩)
          · exact ih hr

/-- A walk keeps the number of items and walks them. -/
theorem Runs.items_getElem? {items items' : List Json} {start : Nat}
    (h : Runs docs rootUrl base path position (.items start items) s (.items start items') s')
    (index : Nat) :
    Option.Rel (Past docs rootUrl base (path ++ [.item (start + index)]))
      items[index]? items'[index]? := by
  induction items generalizing items' start s index with
  | nil =>
      cases h
      exact .none
  | cons item rest ih =>
      cases h with
      | item hv hr =>
          cases index with
          | zero => exact .some (.inr ⟨_, _, _, hv⟩)
          | succ index =>
              have hrest := ih hr index
              rw [Nat.add_right_comm] at hrest
              exact hrest

/-- What is one step below a value is as it was. -/
theorem rel_step? (value : Json) (step : Step) :
    Option.Rel (fun child child' =>
        (step = .member "$ref" → value.reference? = none) →
          Past docs rootUrl base (path ++ [step]) child child')
      (value.step? step) (value.step? step) := by
  cases value.step? step with
  | none => exact .none
  | some child => exact .some fun _ => .inl rfl

/-- A Reference Object that gets another text keeps the members beside it. -/
theorem rel_step?_withReference {value : Json} {text : String} (new : String)
    (hr : value.reference? = some text) (step : Step) :
    Option.Rel (fun child child' =>
        (step = .member "$ref" → value.reference? = none) →
          Past docs rootUrl base (path ++ [step]) child child')
      (value.step? step) ((value.withReference new).step? step) := by
  obtain ⟨members, rfl, hl⟩ := Json.exists_members_of_reference? hr
  cases step with
  | item index => exact rel_step? _ _
  | member name =>
      show Option.Rel _ _ ((Members.set "$ref" (.string new) members).lookup name)
      rw [Members.lookup_set]
      split
      · next heq =>
          subst heq
          show Option.Rel _ (members.lookup "$ref") _
          rw [hl, hr]
          exact .some fun hnone => absurd (hnone rfl) (Option.some_ne_none text)
      · exact rel_step? (.object members) (.member name)

/-- What is not taken in keeps what is one step below it, walked or as it was; only the text of a
Reference Object may be another one. -/
theorem Past.step? {value value' : Json} (h : Past docs rootUrl base path value value')
    (ho : Own rootUrl base value) (step : Step) :
    Option.Rel (fun child child' =>
        (step = .member "$ref" → value.reference? = none) →
          Past docs rootUrl base (path ++ [step]) child child')
      (value.step? step) (value'.step? step) := by
  rcases h with rfl | ⟨position, s, s', h⟩
  · exact rel_step? _ step
  · cases h with
    | scalar => exact rel_step? _ step
    | array h =>
        cases step with
        | member name => exact .none
        | item index =>
            have hitems := h.items_getElem? index
            rw [Nat.zero_add] at hitems
            exact Option.Rel.mono hitems fun hpast _ => hpast
    | object _ h =>
        cases step with
        | member name => exact Option.Rel.mono (h.members_lookup name) fun hpast _ => hpast
        | item index => exact .none
    | link hr => exact rel_step?_withReference _ hr step
    | inlined hr ht hv => exact absurd (ho hr ht) (verdict_eq_inline hv).1
    | hoisted hr => exact rel_step?_withReference _ hr step

/-- What stands below values that are not taken in has something in its place after the walk. -/
theorem Past.exists_at? {value value' node : Json} {rest : Path}
    (h : Past docs rootUrl base path value value')
    (ho : value.AllAbove (Own rootUrl base) rest) (hn : value.at? rest = some node) :
    ∃ node', value'.at? rest = some node' := by
  induction rest generalizing path value value' with
  | nil => exact ⟨value', rfl⟩
  | cons step rest ih =>
      obtain ⟨child, hc, hn⟩ := Option.bind_eq_some_iff.mp hn
      have hrel := h.step? ho.head step
      rw [hc] at hrel
      generalize hc' : value'.step? step = child' at hrel
      cases hrel with
      | @some _ child' hpast =>
          rw [Json.at?_cons, hc']
          by_cases hkept : step = .member "$ref" → value.reference? = none
          · exact ih (hpast hkept) (ho.tail hc) hn
          · -- a text has nothing below it
            obtain ⟨rfl, hr⟩ := Classical.not_imp.mp hkept
            obtain ⟨text, hr⟩ := Option.ne_none_iff_exists'.mp hr
            obtain ⟨members, rfl, hl⟩ := Json.exists_members_of_reference? hr
            cases hl.symm.trans hc
            cases rest with
            | nil => exact ⟨child', rfl⟩
            | cons step rest => cases step <;> cases hn

/-- An object that is not taken in stays an object. -/
theorem Past.exists_object {members : Members} {value' : Json}
    (h : Past docs rootUrl base path (.object members) value')
    (ho : Own rootUrl base (.object members)) : ∃ members', value' = .object members' := by
  rcases h with rfl | ⟨position, s, s', h⟩
  · exact ⟨members, rfl⟩
  · cases h with
    | scalar h => cases h
    | object => exact ⟨_, rfl⟩
    | link => exact ⟨_, rfl⟩
    | inlined hr ht hv => exact absurd (ho hr ht) (verdict_eq_inline hv).1
    | hoisted => exact ⟨_, rfl⟩

end

/-! ## The component schemas of the root -/

/-- None of the root, its components and its component schemas is a reference to another document. -/
def Library.OwnSchemas (docs : Library) (url : Url) : Prop :=
  ∀ {root path value}, docs url = some root → path ∈ spare → root.at? path = some value →
    Own url url value

/-- Whether a value of the root is not taken in from another document. -/
def Json.isOwn (url : Url) (value : Json) : Bool :=
  value.reference?.all fun text =>
    match joinReference url text with
    | .ok target => target.document = url
    | .error _ => true

/-- Whether the root, its components and its component schemas are not taken in. -/
def Library.hasOwnSchemas (docs : Library) (url : Url) : Bool :=
  (docs url).all fun root => spare.all fun path => (root.at? path).all (·.isOwn url)

theorem own_of_isOwn {url : Url} {value : Json} (h : value.isOwn url = true) :
    Own url url value := by
  intro text target hr ht
  rw [Json.isOwn, hr, Option.all_some, ht] at h
  simpa using h

theorem ownSchemas_of_hasOwnSchemas {docs : Library} {url : Url}
    (h : docs.hasOwnSchemas url = true) : docs.OwnSchemas url := by
  intro root path value hd hp ha
  rw [Library.hasOwnSchemas, hd, Option.all_some] at h
  have hvalue := List.all_eq_true.mp h path hp
  rw [ha, Option.all_some] at hvalue
  exact own_of_isOwn hvalue

section

variable {docs : Library} {url : Url} {root walked : Json} {start finish : Progress}

/-- What stands below the root, its components or its component schemas is walked or kept. -/
theorem Walked.past_below (hb : Walked docs url root walked start finish)
    (hown : docs.OwnSchemas url) {path : Path} (hp : path ∈ spare)
    (hpast : Option.Rel (Past docs url url path) (root.at? path) (walked.at? path))
    (name : String) :
    Option.Rel (fun child child' =>
        name ≠ "$ref" → Past docs url url (path ++ [.member name]) child child')
      (root.at? (path ++ [.member name])) (walked.at? (path ++ [.member name])) := by
  rw [Json.at?_concat, Json.at?_concat]
  generalize hv : root.at? path = value at hpast
  generalize walked.at? path = value' at hpast
  cases hpast with
  | none => exact .none
  | some h =>
      refine Option.Rel.mono (h.step? (hown hb.found hp hv) (.member name)) fun hchild hname => ?_
      exact hchild fun heq => absurd (Step.member.inj heq) hname

/-- The root, its components and its component schemas are not taken in. -/
theorem Walked.past (hb : Walked docs url root walked start finish)
    (hown : docs.OwnSchemas url) {path : Path} (hp : path ∈ spare) :
    Option.Rel (Past docs url url path) (root.at? path) (walked.at? path) := by
  have hbelow : ∀ {path name}, path ∈ spare → name ≠ "$ref" →
      Option.Rel (Past docs url url path) (root.at? path) (walked.at? path) →
      Option.Rel (Past docs url url (path ++ [.member name])) (root.at? (path ++ [.member name]))
        (walked.at? (path ++ [.member name])) := fun hp hname hpast =>
    Option.Rel.mono (hb.past_below hown hp hpast _) fun hchild => hchild hname
  have hroot : Option.Rel (Past docs url url []) (root.at? []) (walked.at? []) :=
    .some (.inr ⟨_, _, _, hb.runs⟩)
  have hcomponents : Option.Rel (Past docs url url [.member "components"])
      (root.at? [.member "components"]) (walked.at? [.member "components"]) :=
    hbelow (by decide) (by decide) hroot
  simp only [spare, List.mem_cons, List.not_mem_nil, or_false] at hp
  rcases hp with rfl | rfl | rfl
  · exact hroot
  · exact hcomponents
  · exact hbelow (by decide) (by decide) hcomponents

/-- After the walk the component schemas have the names that the root declares. -/
theorem Walked.isSome_homePath (hb : Walked docs url root walked start finish)
    (hown : docs.OwnSchemas url) (name : String) :
    (walked.at? (homePath name)).isSome = (root.at? (homePath name)).isSome := by
  have hmem : [Step.member "components", .member "schemas"] ∈ spare := by decide
  exact Option.Rel.isSome_eq (hb.past_below hown hmem (hb.past hown hmem) name)

/-- The walk hoists nothing under a name that the root declares. -/
theorem Walked.lookup_hoisted_of_declared
    (hb : Walked docs url root walked start finish) (hs : start.Sound) {name : String}
    (hname : name ∈ (root.componentSchemas?.getD []).names) :
    finish.hoisted.lookup name = none := by
  rw [hb.runs.hoisted_lookup hs (hb.taken ▸ hname), hb.hoisted]
  rfl

/-- Nothing is hoisted under a name at whose home, or below it, the root has a value. -/
theorem Walked.lookup_hoisted_of_root (hb : Walked docs url root walked start finish)
    (hs : start.Sound) {name : String} {below : Path}
    (hroot : (root.at? (homePath name ++ below)).isSome = true) :
    finish.hoisted.lookup name = none := by
  apply hb.lookup_hoisted_of_declared hs
  obtain ⟨value, ha⟩ := Option.isSome_iff_exists.mp hroot
  rw [show homePath name ++ below
      = [.member "components", .member "schemas"] ++ .member name :: below from rfl,
    Json.at?_append, Option.bind_eq_some_iff] at ha
  obtain ⟨schemas, hschemas, ha⟩ := ha
  -- only an object has a member
  cases schemas with
  | object declared =>
      obtain ⟨schema, hl, _⟩ := Option.bind_eq_some_iff.mp ha
      rw [Json.componentSchemas?_eq_some_iff.mpr hschemas]
      exact Members.mem_names_of_lookup hl
  | _ => cases ha

/-- Nothing is hoisted under a name that the component schemas have after the walk. -/
theorem Walked.lookup_hoisted_of_walked
    (hb : Walked docs url root walked start finish) (hs : start.Sound)
    (hown : docs.OwnSchemas url) {name : String} (hname : (walked.at? (homePath name)).isSome = true) :
    finish.hoisted.lookup name = none := by
  rw [hb.isSome_homePath hown, ← List.append_nil (homePath name)] at hname
  exact hb.lookup_hoisted_of_root hs hname

/-- Everything that stands in what the walk made stands in the bundled document. -/
theorem Assembled.at?_of_stands {bundled : Json}
    (hb : Assembled docs url bundled root walked start finish)
    (hs : start.Sound) (hown : docs.OwnSchemas url) {path : Path} {value : Json}
    (h : Stands finish.hoisted (.value walked) [] path value) :
    ∃ value', bundled.at? path = some value' ∧
      (value' = value ∨ Wider finish.hoisted path value value') := by
  refine at?_assembled hb.nodup_hoisted hb.assembled (fun {schemas name} ha hm => ?_) h
  obtain ⟨schema, hl⟩ := Members.exists_lookup_of_mem_names hm
  apply hb.lookup_hoisted_of_walked hs hown
  have hhome : walked.at? (homePath name) = some schema := Json.at?_member ha hl
  rw [hhome]
  rfl

end

/-! ## Aliases -/

section

variable {docs : Library} {url : Url} {root walked : Json} {start finish : Progress}

/-- An alias is a component of the root under its own name. -/
theorem Walked.alias_eq (hb : Walked docs url root walked start finish)
    {target : Url} {name : String} (hn : start.names.lookup target = some name) :
    ∃ declared schema text, root.componentSchemas? = some declared ∧ (name, schema) ∈ declared ∧
      schema.reference? = some text ∧ joinReference url text = .ok target ∧
      target.document ≠ url := by
  obtain ⟨new, heq, _, halias⟩ := reserveNames_eq_append hb.names
  rw [List.nil_append] at heq
  obtain ⟨schema, text, hm, hrest⟩ := halias _ (heq ▸ mem_of_lookup hn)
  cases hdeclared : root.componentSchemas? with
  | none =>
      rw [hdeclared] at hm
      simp at hm
  | some declared =>
      rw [hdeclared] at hm
      exact ⟨declared, schema, text, rfl, hm, hrest⟩

/-- An alias stands in the root at its home, and nothing else is hoisted under its name. -/
theorem Walked.home_alias (hb : Walked docs url root walked start finish)
    (hs : start.Sound) (hproper : root.proper = true) {declared : Members} {schema : Json}
    {name : String} (hdeclared : root.componentSchemas? = some declared)
    (hm : (name, schema) ∈ declared) :
    root.at? (homePath name) = some schema ∧ finish.hoisted.lookup name = none := by
  have hat := Json.componentSchemas?_eq_some_iff.mp hdeclared
  have hnodup := (Json.proper_object_iff.mp (Json.proper_of_at? hproper hat)).1
  refine ⟨Json.at?_member hat (lookup_of_mem hnodup hm), hb.lookup_hoisted_of_declared hs ?_⟩
  rw [hdeclared]
  exact List.mem_map_of_mem (f := Prod.fst) hm

/-- The home of a component schema stands below the three objects only. -/
theorem mem_spare_of_homePath {name : String} {above below : Path} {step : Step}
    (h : homePath name = above ++ step :: below) : above ∈ spare := by
  rcases above with _ | ⟨a, _ | ⟨b, _ | ⟨c, rest⟩⟩⟩
  · decide
  · cases h
    decide
  · cases h
    decide
  · have hlength := congrArg List.length h
    simp [homePath] at hlength

end

/-! ## What a bundling keeps -/

/-- Every schema that was hoisted stands in the bundled document under its own name, and so does every
component schema of the walked root under whose name nothing was hoisted, as is the case for all
names that the root declares. If the root, its components and its component schemas are its own, this
is so for all component schemas of the walked root: adding what was hoisted destroys none. -/
theorem bundle_retains {source : Source} {fuel : Nat} {url : Url} {shelf : Shelf}
    {document : Document} {finish : Progress}
    (h : bundleAt source fuel url { shelf } = .ok document finish)
    (hproper : ∀ {root}, available source shelf url = some root → root.proper = true) :
    ∃ root start walked, bundleStart source url { shelf } = .ok root start ∧
      root.walk (replaceReference source url fuel url) .root .other start = .ok walked finish ∧
      (∀ {name schema}, finish.hoisted.lookup name = some schema →
        document.root.at? (homePath name) = some schema) ∧
      (∀ {name schema}, walked.at? (homePath name) = some schema →
        finish.hoisted.lookup name = none → document.root.at? (homePath name) = some schema) ∧
      (∀ {name}, name ∈ (root.componentSchemas?.getD []).names →
        finish.hoisted.lookup name = none) ∧
      (Library.OwnSchemas (available source shelf) url → ∀ {name schema},
        walked.at? (homePath name) = some schema →
        document.root.at? (homePath name) = some schema) := by
  obtain ⟨root, walked, start, hstart, hwalk, hb⟩ := bundle_walk rfl h
  have hs := sound_of_bundleStart (hproper hb.found) hstart
  have hat := at?_homePath_assembled hb.nodup_hoisted hb.assembled
  have hkept : ∀ {name schema}, walked.at? (homePath name) = some schema →
      finish.hoisted.lookup name = none → document.root.at? (homePath name) = some schema := by
    intro name schema ha hnone
    rw [hat, hnone, Option.none_or, ha]
  refine ⟨root, start, walked, hstart, hwalk, fun {name schema} hl => ?_, hkept,
    hb.lookup_hoisted_of_declared hs, fun hown {name schema} ha => ?_⟩
  · rw [hat, hl, Option.some_or]
  · refine hkept ha (hb.lookup_hoisted_of_walked hs hown ?_)
    rw [ha]
    rfl

/-- The type that a document gives the component schema of a name. -/
def Json.typeAtHome (tree : Json) (name : String) : Option String :=
  (tree.at? (homePath name ++ [.member "type"])).bind asString?

/-- The root declares a schema `A` and refers to another one of this name. -/
def collidingShelf : Shelf :=
  [(rootUrl, .object [("openapi", .string "3.0.0"),
      ("components", .object [("schemas", .object [("A", .object [("type", .string "integer")])])]),
      ("x", .object [("schema", .object [("$ref", .string "e#/definitions/A")])])]),
   (⟨"mem", some {}, .segments ["e"], none, none⟩,
    .object [("definitions", .object [("A", .object [("type", .string "string")])])])]

/-- The declared schema stays, and the other one stands beside it under a name of its own. -/
theorem retains_collidingShelf :
    ∃ document finish root start walked,
      bundleAt .empty 10 rootUrl { shelf := collidingShelf } = .ok document finish ∧
      bundleStart .empty rootUrl { shelf := collidingShelf } = .ok root start ∧
      root.walk (replaceReference .empty rootUrl 10 rootUrl) .root .other start
        = .ok walked finish ∧
      document.root.typeAtHome "A" = some "integer" ∧
      document.root.typeAtHome "A1" = some "string" ∧
      (∀ {name schema}, finish.hoisted.lookup name = some schema →
        document.root.at? (homePath name) = some schema) ∧
      (∀ {name schema}, walked.at? (homePath name) = some schema →
        document.root.at? (homePath name) = some schema) := by
  have hproper : ∀ entry ∈ collidingShelf, entry.2.proper = true := by decide
  have hown : Library.OwnSchemas (available .empty collidingShelf) rootUrl :=
    ownSchemas_of_hasOwnSchemas (by decide +kernel)
  have hrun : bundlesTo .empty 10 rootUrl collidingShelf (fun document _ =>
      document.root.typeAtHome "A" = some "integer" ∧
        document.root.typeAtHome "A1" = some "string") = true := by decide +kernel
  obtain ⟨document, finish, h, hcheck⟩ := exists_of_bundlesTo hrun
  obtain ⟨hdeclared, hbeside⟩ := of_decide_eq_true hcheck
  obtain ⟨root, start, walked, hstart, hwalk, hhoisted, _, _, hkept⟩ :=
    bundle_retains h fun hd => hproper _ (mem_of_available_empty hd)
  exact ⟨document, finish, root, start, walked, h, hstart, hwalk, hdeclared, hbeside, hhoisted,
    hkept hown⟩

/-- The components of the root are those of another document, which has a schema `A` as well. -/
def suppliedShelf : Shelf :=
  [(rootUrl, .object [("openapi", .string "3.0.0"),
      ("components", .object [("$ref", .string "e#/c")]),
      ("x", .object [("schema", .object [("$ref", .string "f#/definitions/A")])])]),
   (⟨"mem", some {}, .segments ["e"], none, none⟩,
    .object [("c", .object [("schemas", .object [("A", .object [("type", .string "string")])])])]),
   (⟨"mem", some {}, .segments ["f"], none, none⟩,
    .object [("definitions", .object [("A", .object [("type", .string "integer")])])])]

/-- A schema that the walk left in the components of the root is lost: it came from another document,
and what was hoisted under its name takes its place. -/
theorem lost_suppliedShelf :
    ∃ root start walked document finish,
      bundleStart .empty rootUrl { shelf := suppliedShelf } = .ok root start ∧
      root.walk (replaceReference .empty rootUrl 10 rootUrl) .root .other start
        = .ok walked finish ∧
      bundleAt .empty 10 rootUrl { shelf := suppliedShelf } = .ok document finish ∧
      walked.typeAtHome "A" = some "string" ∧ document.root.typeAtHome "A" = some "integer" := by
  have hwalks : walksTo .empty 10 rootUrl suppliedShelf (fun walked =>
      walked.typeAtHome "A" = some "string") = true := by decide +kernel
  have hbundles : bundlesTo .empty 10 rootUrl suppliedShelf (fun document _ =>
      document.root.typeAtHome "A" = some "integer") = true := by decide +kernel
  obtain ⟨document, finish, h, hdocument⟩ := exists_of_bundlesTo hbundles
  obtain ⟨root, walked, start, hstart, hwalk, _⟩ := bundle_walk rfl h
  obtain ⟨root', start', walked', finish', hstart', hwalk', hwalked⟩ := exists_of_walksTo hwalks
  -- there is one start and one walk
  cases hstart.symm.trans hstart'
  cases hwalk.symm.trans hwalk'
  exact ⟨root, start, walked, document, finish, hstart, hwalk, h, of_decide_eq_true hwalked,
    of_decide_eq_true hdocument⟩

end OpenApi
