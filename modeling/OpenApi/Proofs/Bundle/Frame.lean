import OpenApi.Proofs.Bundle.Siblings

/-!
# Bundling touches nothing but references

A walk rewrites in place, whole subtrees at times, and afterwards what was hoisted is merged into the
same tree. What is left of a document in the end is its frame: below no Reference Object each value
keeps its kind, a scalar its value, an array its number of items, an object its names in their order.
`Framed` says so of one value and allows for the one place where names are added, the object at
`components/schemas`, and for the two objects on the way there, which may have to be created.

`bundle_frames` has the frame at every path of the root at once, except where a reference to another
document was replaced by its target. It rests on two facts: what is hoisted has no name that the root
declares, so merging replaces nothing, and a reference into the root is the text of a link, so that all
of it but the text stays.
-/

namespace OpenApi

/-! ## Frames -/

/-- Two values at a path have one frame: the same scalar, as many items, or the same names in the same
order, followed by those that are added there. -/
inductive Framed (path : Path) : Json → Json → Prop where
  | scalar {value : Json} (h : value.isScalar = true) : Framed path value value
  | array {items items' : List Json} (h : items'.length = items.length) :
      Framed path (.array items) (.array items')
  | object {members members' : Members} {added : List String}
      (ha : Addition members.names path added) (h : members'.names = members.names ++ added) :
      Framed path (.object members) (.object members')

section

variable {path : Path} {value value' value'' : Json}

theorem Addition.append {names added more : List String} (h : Addition names path added)
    (hm : Addition (names ++ added) path more) : Addition names path (added ++ more) := by
  cases h with
  | nothing =>
      rw [List.append_nil] at hm
      exact hm
  | components h =>
      cases hm with
      | nothing => exact .components h
      | components hm => simp at hm
  | schemas h =>
      cases hm with
      | nothing => exact .schemas h
      | schemas hm => simp at hm
  | hoisted => exact .hoisted

theorem Framed.of_names_eq {members members' : Members} (h : members'.names = members.names) :
    Framed path (.object members) (.object members') :=
  .object .nothing (h.trans (List.append_nil _).symm)

theorem Framed.refl (path : Path) (value : Json) : Framed path value value := by
  cases value with
  | array items => exact .array rfl
  | object members => exact .of_names_eq rfl
  | _ => exact .scalar rfl

theorem Framed.trans (h : Framed path value value') (h' : Framed path value' value'') :
    Framed path value value'' := by
  cases h with
  | scalar => exact h'
  | array h =>
      cases h' with
      | scalar => exact .array h
      | array h' => exact .array (h'.trans h)
  | object ha h =>
      cases h' with
      | scalar => exact .object ha h
      | object ha' h' =>
          rw [h] at ha' h'
          exact .object (ha.append ha') (h'.trans (List.append_assoc _ _ _))

end

/-! ## What a walk keeps -/

section

variable {docs : Library} {rootUrl base target : Url} {path : Path} {position : Position}
  {value value' : Json} {text : String} {s s' : Progress}

theorem Runs.length_items {start : Nat} {items items' : List Json}
    (h : Runs docs rootUrl base path position (.items start items) s (.items start items') s') :
    items'.length = items.length := by
  induction items generalizing items' start s with
  | nil =>
      cases h
      rfl
  | cons item rest ih =>
      cases h with
      | item _ hr => rw [List.length_cons, List.length_cons, ih hr]

theorem Runs.names_members {members members' : Members}
    (h : Runs docs rootUrl base path position (.members members) s (.members members') s') :
    members'.names = members.names := by
  induction members generalizing members' s with
  | nil =>
      cases h
      rfl
  | cons entry rest ih =>
      cases h with
      | member _ hr => exact congrArg (List.cons _) (ih hr)

/-- A new text is set in its place, so a Reference Object keeps its names. -/
theorem framed_withReference (new : String) (hr : value.reference? = some text) :
    Framed path value (value.withReference new) := by
  obtain ⟨members, rfl, hl⟩ := Json.exists_members_of_reference? hr
  apply Framed.of_names_eq
  rw [Members.names_set, if_pos (Members.mem_names_of_lookup hl)]

/-- The target of a reference to another document was taken in at a path: what stands there is what the
walk of the target left, up to the frame. -/
def TakenIn (docs : Library) (rootUrl base : Url) (path : Path) (value value' : Json) : Prop :=
  ∃ text target node walked position s s', value.reference? = some text ∧
    joinReference base text = .ok target ∧ target.document ≠ rootUrl ∧
    docs.node? target = some node ∧
    Runs docs rootUrl target.document path position (.value node) s (.value walked) s' ∧
    Framed path walked value'

theorem TakenIn.trans {value'' : Json} (h : TakenIn docs rootUrl base path value value')
    (h' : Framed path value' value'') : TakenIn docs rootUrl base path value value'' := by
  obtain ⟨text, target, node, walked, position, s, s', hr, ht, hne, hn, hrun, hframed⟩ := h
  exact ⟨text, target, node, walked, position, s, s', hr, ht, hne, hn, hrun, hframed.trans h'⟩

/-- A walk keeps the frame of a value, or takes in a target from another document in its place. -/
theorem Runs.framed_or_takenIn
    (h : Runs docs rootUrl base path position (.value value) s (.value value') s') :
    Framed path value value' ∨ TakenIn docs rootUrl base path value value' := by
  cases h with
  | scalar h => exact .inl (.scalar h)
  | array h => exact .inl (.array h.length_items)
  | object _ h => exact .inl (.of_names_eq h.names_members)
  | link hr => exact .inl (framed_withReference _ hr)
  | inlined hr ht hv hn hrun =>
      exact .inr ⟨_, _, _, _, _, _, _, hr, ht, (verdict_eq_inline hv).1, hn, hrun, .refl _ _⟩
  | hoisted hr => exact .inl (framed_withReference _ hr)

/-- A reference into the root gets its own fragment as text and leaves no trace in the tables. -/
theorem Runs.eq_withReference
    (h : Runs docs rootUrl base path position (.value value) s (.value value') s')
    (hr : value.reference? = some text) (ht : joinReference base text = .ok target)
    (he : target.document = rootUrl) :
    value' = value.withReference ("#" ++ target.fragment.getD "") ∧ s' = s := by
  cases h.replaced hr ht with
  | link hv =>
      rcases verdict_eq_link hv with ⟨_, rfl⟩ | ⟨hne, _⟩ | ⟨hne, _⟩
      · exact ⟨rfl, rfl⟩
      · exact absurd he hne
      · exact absurd he hne
  | inlined hv => exact absurd he (verdict_eq_inline hv).1
  | hoisted hv => exact absurd he (verdict_eq_hoist hv).1

end

/-! ## What adding component schemas keeps -/

/-- Adding what was hoisted keeps the frame of everything that stands neither at the home of a hoisted
schema nor below it. -/
theorem exists_framed_assembled {hoisted : Members} {walked bundled : Json}
    (hn : hoisted.names.Nodup) (hb : assembled hoisted walked = .ok bundled) {path : Path}
    {value : Json} (ha : walked.at? path = some value)
    (hfree : ∀ {name below}, path = homePath name ++ below → hoisted.lookup name = none) :
    ∃ value', bundled.at? path = some value' ∧ Framed path value value' := by
  by_cases hspare : path ∈ spare
  · rcases exists_extended_assembled hb hspare ha with hsame | ⟨members, members', rfl, hat, hext⟩
    · exact ⟨value, hsame, .refl _ _⟩
    · obtain ⟨added, hadded, hnames⟩ := hext.exists_addition
      exact ⟨_, hat, .object hadded hnames⟩
  · exact ⟨value, (at?_assembled_of_apart hn hb hspare hfree).trans ha, .refl _ _⟩

/-! ## Bundling -/

/-- Take a path of the root that leads through no Reference Object. What stands there has the same frame
in the bundled document, unless it is a reference to another document and the target was taken in. If it
is a reference into the root, and does not stand at the place of the components or of the component
schemas, it is the same object but for the text of its `$ref`. -/
theorem bundle_frames {source : Source} {fuel : Nat} {url : Url} {shelf : Shelf}
    {document : Document} {finish : Progress}
    (h : bundleAt source fuel url { shelf } = .ok document finish)
    (hd : Library.Proper (available source shelf)) :
    ∃ root, available source shelf url = some root ∧
      ∀ {path value}, root.at? path = some value → root.AllAbove (·.reference? = none) path →
        (∃ value', document.root.at? path = some value' ∧
          (Framed path value value' ∨ TakenIn (available source shelf) url url path value value')) ∧
        ∀ {text target}, value.reference? = some text → joinReference url text = .ok target →
          target.document = url → path ≠ [.member "components"] →
          path ≠ [.member "components", .member "schemas"] →
          document.root.at? path = some (value.withReference ("#" ++ target.fragment.getD "")) := by
  obtain ⟨root, walked, start, hstart, _, hb⟩ := bundle_walk rfl h
  have hs := sound_of_bundleStart (hd hb.found) hstart
  refine ⟨root, hb.found, fun {path value} ha habove => ?_⟩
  obtain ⟨call, _, ⟨rfl, hpath, hpart⟩, _, hrun, value', hresult, hwalked⟩ :=
    hb.toWalked.at?_of_reached hs hd ha habove
  rw [Call.IsRun, hpath, hpart, hresult] at hrun
  have hfree : ∀ {name below}, path = homePath name ++ below →
      finish.hoisted.lookup name = none := by
    rintro name below rfl
    exact hb.lookup_hoisted_of_root hs (by rw [ha]; rfl)
  constructor
  · obtain ⟨value'', hbundled, hframed⟩ :=
      exists_framed_assembled hb.nodup_hoisted hb.assembled hwalked hfree
    exact ⟨value'', hbundled, hrun.framed_or_takenIn.imp (·.trans hframed) (·.trans hframed)⟩
  · intro text target hr ht he hcomponents hschemas
    obtain ⟨rfl, _⟩ := hrun.eq_withReference hr ht he
    by_cases hroot : path = []
    · -- the root itself is the reference, so nothing was hoisted
      subst hroot
      cases ha
      have hassembled := hb.assembled
      rw [(hb.runs.eq_withReference hr ht he).2, hb.hoisted] at hassembled
      cases hassembled
      exact hwalked
    · rw [at?_assembled_of_apart hb.nodup_hoisted hb.assembled _ hfree]
      · exact hwalked
      · simp [spare, hroot, hcomponents, hschemas]

/-- The path to the second item of a list. -/
def secondPath : Path := [.member "x", .member "list", .item 1]

/-- A document without components that refers to a schema of another one and, in a list, to itself. -/
def framedRoot : Json :=
  .object [("openapi", .string "3.0.0"), ("x", .object [
      ("schema", .object [("$ref", .string "e#/definitions/S")]),
      ("list", .array [.null, .object [("$ref", .string "#/y"), ("readOnly", .bool true)]])]),
    ("y", .bool true)]

/-- The root and the other document. -/
def framedShelf : Shelf :=
  [(rootUrl, framedRoot),
   (⟨"mem", some {}, .segments ["e"], none, none⟩,
    .object [("definitions", .object [("S", .object [("type", .string "string")])])])]

/-- The components are created at the end of the root, which is the same otherwise, and the reference
in the list keeps what stands beside it. -/
theorem frames_framedShelf :
    ∃ document finish, bundleAt .empty 10 rootUrl { shelf := framedShelf } = .ok document finish ∧
      (document.root.asObject?.map Members.names) = some ["openapi", "x", "y", "components"] ∧
      (∃ value', document.root.at? [] = some value' ∧ Framed [] framedRoot value') ∧
      document.root.at? secondPath
        = some (.object [("$ref", .string "#/y"), ("readOnly", .bool true)]) := by
  have hproper : ∀ entry ∈ framedShelf, entry.2.proper = true := by decide
  have hrun : bundlesTo .empty 10 rootUrl framedShelf (fun document _ =>
      (document.root.asObject?.map Members.names) = some ["openapi", "x", "y", "components"])
      = true := by decide +kernel
  obtain ⟨document, finish, h, hcheck⟩ := exists_of_bundlesTo hrun
  obtain ⟨root, hroot, hframes⟩ := bundle_frames h fun hd => hproper _ (mem_of_available_empty hd)
  cases hroot.symm.trans (show available .empty framedShelf rootUrl = some framedRoot from rfl)
  obtain ⟨target, ht, he⟩ : ∃ target, joinReference rootUrl "#/y" = .ok target ∧
      target.document = rootUrl ∧ target.fragment.getD "" = "/y" := ⟨_, rfl, by decide, by decide⟩
  have hsecond := (@hframes secondPath _ rfl (by decide)).2 rfl ht he.1 (by decide) (by decide)
  rw [he.2] at hsecond
  obtain ⟨value', hwhole, hframed | htaken⟩ := (hframes rfl (Json.allAbove_nil _ _)).1
  · exact ⟨document, finish, h, of_decide_eq_true hcheck, ⟨value', hwhole, hframed⟩, hsecond⟩
  · -- the root is no reference, so nothing was taken in for it
    obtain ⟨text, _, _, _, _, _, _, hr, _⟩ := htaken
    cases hr

/-- A document that refers to a list of another one. -/
def listRoot : Json :=
  .object [("openapi", .string "3.0.0"), ("x", .object [("$ref", .string "e#/y")])]

/-- The root and the other document. -/
def listShelf : Shelf :=
  [(rootUrl, listRoot),
   (⟨"mem", some {}, .segments ["e"], none, none⟩, .object [("y", .array [.bool true])])]

/-- Where a target is taken in, the frame is that of the target: the reference is an object and leads
through no other reference, and in its place stands a list. -/
theorem not_framed_listShelf :
    ∃ document finish, bundleAt .empty 10 rootUrl { shelf := listShelf } = .ok document finish ∧
      ¬∀ {path value}, listRoot.at? path = some value →
        listRoot.AllAbove (·.reference? = none) path →
        ∃ value', document.root.at? path = some value' ∧ Framed path value value' := by
  have hrun : bundlesTo .empty 10 rootUrl listShelf (fun document _ =>
      (document.root.at? [.member "x"]).bind Json.asArray? |>.isSome) = true := by decide +kernel
  obtain ⟨document, finish, h, hcheck⟩ := exists_of_bundlesTo hrun
  refine ⟨document, finish, h, fun hall => ?_⟩
  obtain ⟨value', ha, hframed⟩ := @hall [.member "x"] _ rfl (by decide)
  rw [ha] at hcheck
  cases hframed with
  | scalar hs => cases hs
  | object => cases hcheck

end OpenApi
