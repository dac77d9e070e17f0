import OpenApi.Proofs.Bundle.Fault

/-!
# Bundling succeeds where references resolve

A bundling can fail before, in and after its walk. Before and in the walk only a reference that
denotes nothing, or want of fuel, is a reason. After it, what was hoisted must find objects to be added
to, and then every reference of the result must resolve in it. These are links that the walk wrote, and
under the conditions of `Library.Bundleable` what they lead to stands where they say.

A reference to another document may be replaced as a whole, so no reference may lead below it. What
stands beside the text of a reference is not walked, so a reference there must be one that the root
can keep. A text that is taken in must not make a Reference Object of the object that it becomes a
member of. Links do not escape a `%`, so none may be written that reads as another one. These two are
what `Library.Linkable` asks for. Where no name holds a percent-escape, no link does. The last section
has documents that cannot be bundled for want of one of these conditions.
-/

namespace OpenApi

/-! ## What is asked of the documents -/

/-- Every reference of the documents denotes a node, and none of them the text of another one. -/
def Library.Resolves (docs : Library) : Prop :=
  ∀ {base tree text}, docs base = some tree → text ∈ tree.references →
    ∃ target found place, joinReference base text = .ok target ∧
      docs target.document = some found ∧
      found.locate? (target.fragment.getD "") = some place ∧
      ∀ {above holder}, place = above ++ [.member "$ref"] → found.at? above = some holder →
        holder.reference? = none

/-- The root, its components and its component schemas are objects, and no references to another
document. -/
def Json.HasObjects (url : Url) (root : Json) : Prop :=
  ∀ {path value}, path ∈ spare → root.at? path = some value →
    (∃ members, value = .object members) ∧ Own url url value

/-- What is asked of documents so that nothing becomes a Reference Object by being bundled. -/
structure Library.Candid (docs : Library) : Prop where
  /-- No object repeats a name. -/
  proper : docs.Proper
  /-- No member `$ref` is a reference to a text. -/
  member : ∀ {base tree path node reference m text}, docs base = some tree →
    tree.at? (path ++ [.member "$ref"]) = some node → node.reference? = some reference →
    (sourceGraph docs).Ends (base, path ++ [.member "$ref"]) m →
    (sourceGraph docs).value? m ≠ some (.string text)
  /-- No text is to be hoisted under the name `$ref`. -/
  hoisted : ∀ {target position n m text}, docs.Targets target →
    hoistName? target.document (target.fragment.getD "") position = some "$ref" →
    docs.site? target = some n → (sourceGraph docs).Ends n m →
    (sourceGraph docs).value? m ≠ some (.string text)

/-- What is asked of documents so that the links that are written lead to what they say. -/
structure Library.Linkable (docs : Library) (url : Url) : Prop extends docs.Candid where
  /-- No link that is written has a percent-escape in its text. -/
  links : ∀ {root walked bundled start finish text},
    Assembled docs url bundled root walked start finish → text ∈ bundled.references →
    ¬docs.Carries url text → Text.hasEscape text.toList = false

/-- What is asked of documents so that all references of the result resolve, be they written or
carried over. -/
structure Library.Bundleable (docs : Library) (url : Url) : Prop extends docs.Linkable url where
  /-- No reference into the root leads below a reference to another document. -/
  clear : ∀ {target root path}, docs.Targets target → target.document = url →
    docs url = some root → root.locate? (target.fragment.getD "") = some path →
    root.AllAbove (Own url url) path
  /-- A reference that stands beside the text of another one, and is left as it is, resolves in the
  root and leads below no reference to another document. -/
  beside : ∀ {base members own text}, docs.Holds base (.object members) →
    (Json.object members).reference? = some own → text ∈ Json.memberReferences members →
    ∃ root path, docs url = some root ∧ root.locateLocal? text = some path ∧
      root.AllAbove (Own url url) path

section

variable {docs : Library} {url : Url}

theorem Library.Resolves.node? (h : docs.Resolves) {base : Url} {tree : Json} {text : String}
    (hd : docs base = some tree) (hm : text ∈ tree.references) :
    ∃ target node, joinReference base text = .ok target ∧ docs.node? target = some node := by
  obtain ⟨target, found, place, ht, hfound, hl, _⟩ := h hd hm
  obtain ⟨node, _, hn⟩ := Json.exists_resolve?_of_locate? hl
  exact ⟨target, node, ht, by rw [Library.node?, hfound]; exact hn⟩

theorem Library.Resolves.not_dangling (h : docs.Resolves) (base : Url) (text : String) :
    ¬docs.Dangling base text := by
  rintro ⟨⟨tree, hd, hm⟩, hdangling⟩
  obtain ⟨target, node, ht, hn⟩ := h.node? hd hm
  exact hdangling ht hn

theorem ownSchemas_of_hasObjects {root : Json} (hd : docs url = some root)
    (h : root.HasObjects url) : docs.OwnSchemas url := by
  intro found path value hfound hp ha
  cases hd.symm.trans hfound
  exact (h hp ha).2

end

/-! ## Before the walk -/

/-- Names are reserved if the references among the components have URLs. -/
theorem exists_reserveNames {rootUrl : Url} {declared : Members} (names : List (Url × String))
    (h : ∀ {name schema text}, (name, schema) ∈ declared → schema.reference? = some text →
      ∃ target, joinReference rootUrl text = .ok target) :
    ∃ names', reserveNames rootUrl declared names = .ok names' := by
  induction declared generalizing names with
  | nil => exact ⟨names, rfl⟩
  | cons entry rest ih =>
      obtain ⟨name, schema⟩ := entry
      have hrest : ∀ names, ∃ names', reserveNames rootUrl rest names = .ok names' :=
        fun names => ih names fun hm hr => h (List.mem_cons_of_mem _ hm) hr
      unfold reserveNames
      cases hr : schema.reference? with
      | none => exact hrest names
      | some text =>
          obtain ⟨target, ht⟩ := h List.mem_cons_self hr
          simp only [ht]
          split
          · exact hrest _
          · exact hrest names

/-- The start of a bundling succeeds with a root of an accepted version whose references have URLs. -/
theorem exists_bundleStart {source : Source} {shelf : Shelf} {url : Url} {root : Json}
    (hroot : available source shelf url = some root) (hversion : checkVersion root = .ok ())
    (hresolves : Library.Resolves (available source shelf)) :
    ∃ start, bundleStart source url { shelf } = .ok root start := by
  obtain ⟨shelf', hrun, _⟩ := Walk.document_run_of_available (s := { shelf }) hroot
  have hnames : ∃ names, reserveNames url (root.componentSchemas?.getD []) [] = .ok names := by
    refine exists_reserveNames [] fun {name schema text} hm hr => ?_
    have hsub := references_subset_of_mem_componentSchemas hm
    obtain ⟨target, _, ht, _⟩ :=
      hresolves.node? hroot (hsub (Json.mem_references_of_reference? hr))
    exact ⟨target, ht⟩
  obtain ⟨names, hnames⟩ := hnames
  rw [bundleStart_run, hrun]
  simp only [hversion, hnames]
  exact ⟨_, rfl⟩

/-! ## The walk -/

section

variable {source : Source} {shelf : Shelf} {url : Url} {root : Json} {start : Progress}
  {entries : List (Url × Json)}

/-- With enough fuel the walk of the root succeeds if every reference resolves. -/
theorem exists_walk
    (hfinite : ∀ {base tree}, available source shelf base = some tree → (base, tree) ∈ entries)
    {fuel : Nat} (hfuel : fuelBound entries ≤ fuel)
    (hstart : bundleStart source url { shelf } = .ok root start)
    (hproper : Library.Proper (available source shelf))
    (hresolves : Library.Resolves (available source shelf))
    (hself : ¬Library.SelfReference (available source shelf)) :
    ∃ walked finish, root.walk (replaceReference source url fuel url) .root .other start
      = .ok walked finish := by
  obtain ⟨hroot, hsees, _⟩ := bundleStart_run_ok rfl hstart
  have hsettled := settled_walk_root hfinite (fun hd => hproper hd) hself hfuel hstart
  cases hrun : root.walk (replaceReference source url fuel url) .root .other start with
  | ok walked finish => exact ⟨walked, finish, rfl⟩
  | error error finish =>
      -- neither of the two reasons to fail is given
      rcases blames_of_walk_root hsees hproper hroot hrun with hexhausted | hdangles
      · exact absurd hexhausted (hsettled.not_exhausted (hsettled.eq.trans hrun))
      · obtain ⟨base, text, hdangling, _⟩ := hdangles
        exact absurd hdangling (hresolves.not_dangling base text)

end

/-! ## After the walk -/

section

variable {docs : Library} {url : Url} {root walked bundled : Json} {start finish : Progress}

/-- After the walk the root, its components and its component schemas are objects still. -/
theorem Walked.exists_object (hb : Walked docs url root walked start finish)
    (hobjects : root.HasObjects url) {path : Path} {value : Json} (hp : path ∈ spare)
    (ha : walked.at? path = some value) : ∃ members, value = .object members := by
  have hpast := hb.past (ownSchemas_of_hasObjects hb.found hobjects) hp
  rw [ha] at hpast
  generalize hn : root.at? path = node at hpast
  cases hpast with
  | some h =>
      obtain ⟨⟨members, rfl⟩, hown⟩ := hobjects hp hn
      exact h.exists_object hown

/-- A numbered name does not end like `$ref`. -/
theorem ne_numbered (wanted : String) (k : Nat) : "$ref" ≠ wanted ++ toString k := by
  intro heq
  have hlist := congrArg String.toList heq
  rw [String.toList_append] at hlist
  have hne : (toString k).toList ≠ [] := by
    rw [Pointer.toList_toString]
    exact Nat.toDigits_ne_nil
  have hlast : (toString k).toList.getLast hne = 'f' := by
    have hends := congrArg List.getLast? hlist
    rw [List.getLast?_append, List.getLast?_eq_some_getLast hne, Option.some_or] at hends
    exact (Option.some.inj hends).symm
  have hdigit := Pointer.isDigit_of_mem_toString (List.getLast_mem hne)
  rw [hlast] at hdigit
  exact absurd hdigit (by decide)

/-- Nothing turns into a Reference Object. -/
theorem Walked.undisguised (hb : Walked docs url root walked start finish) (hs : start.Sound)
    (hcandid : docs.Candid) : docs.Undisguised finish.hoisted where
  member := hcandid.member
  hoisted text hl := by
    obtain ⟨target, hhoists⟩ := hb.hoisted_images hs hcandid.proper _ _ (mem_of_lookup hl)
    obtain ⟨position, wanted, taken, hwanted, hname⟩ := hhoists.named
    have hsame : wanted = "$ref" := by
      rcases Walk.freeName_eq_or taken wanted with heq | ⟨k, heq⟩
      · exact (hname.trans heq).symm
      · exact absurd (hname.trans heq) (ne_numbered wanted k)
    subst hsame
    obtain ⟨node, hn, himage⟩ := hhoists.image
    obtain ⟨tree, place, hsite, hd, ha⟩ := exists_site?_of_node? hn
    obtain ⟨m, hends, hm⟩ := himage.ends_string hd ha
    exact hcandid.hoisted hhoists.targeted hwanted hsite hends hm

/-- What stands in the root below no reference to another document has something in its place in the
bundled document. -/
theorem Assembled.at?_of_root (hb : Assembled docs url bundled root walked start finish)
    (hs : start.Sound) (hown : docs.OwnSchemas url) {path : Path} {node : Json}
    (ha : root.at? path = some node) (ho : root.AllAbove (Own url url) path) :
    ∃ value, bundled.at? path = some value := by
  have hpast : Past docs url url [] root walked := .inr ⟨_, _, _, hb.runs⟩
  obtain ⟨value, hv⟩ := hpast.exists_at? ho ha
  obtain ⟨value', ha', _⟩ := hb.at?_of_stands hs hown (.inl ⟨path, rfl, hv⟩)
  exact ⟨value', ha'⟩

/-- What has landed stands in the bundled document. -/
theorem Assembled.at?_of_landed (hb : Assembled docs url bundled root walked start finish)
    (hs : start.Sound) (hown : docs.OwnSchemas url) {target : Url} {place : Path}
    (h : Landed docs url finish (.value walked) [] target place) :
    ∃ value, bundled.at? place = some value := by
  obtain ⟨_, _, _, _, hstands⟩ := h
  obtain ⟨value', ha', _⟩ := hb.at?_of_stands hs hown hstands
  exact ⟨value', ha'⟩

/-- A text that leads into the root, and there below no reference to another document, resolves. -/
theorem Assembled.resolves_own (hb : Assembled docs url bundled root walked start finish)
    (hs : start.Sound) (hown : docs.OwnSchemas url) {text : String} {path : Path}
    (hl : root.locateLocal? text = some path) (hclear : root.AllAbove (Own url url) path) :
    (bundled.resolveLocal? text).isSome = true := by
  obtain ⟨node, ha⟩ := Json.exists_at?_of_locateLocal? hl
  obtain ⟨value, hv⟩ := hb.at?_of_root hs hown ha hclear
  exact Json.isSome_resolveLocal?_of_at? hl hv

theorem Walked.lands_proper (hb : Walked docs url root walked start finish) (hs : start.Sound)
    (hproper : docs.Proper) : Lands docs url (fun _ => True) start finish (.value walked) [] :=
  hb.lands Step.lenient_true hs
    (fun hd => Json.tidy_of_proper (hproper hd) fun _ _ _ => trivial) fun _ => trivial

/-- The link to a target with a name resolves, if it has no escape. -/
theorem Assembled.resolves_named (hb : Assembled docs url bundled root walked start finish)
    (hs : start.Sound) (hown : docs.OwnSchemas url) (hproper : docs.Proper) {target : Url}
    {name : String} (hn : finish.names.lookup target = some name)
    (hlink : Text.hasEscape ("#" ++ (Pointer.home name).text).toList = false) :
    (bundled.resolveLocal? ("#" ++ (Pointer.home name).text)).isSome = true := by
  rw [← ofPath_homePath] at hlink ⊢
  have hread := Path.hasEscape_link_iff.mp hlink
  rcases (hb.lands_proper hs hproper).names hn with hn | ⟨_, hlanded⟩
  · -- an alias stands at its home in the root
    obtain ⟨declared, schema, _, hdeclared, hmem, _⟩ := hb.alias_eq hn
    obtain ⟨hhome, _⟩ := hb.home_alias hs (hproper hb.found) hdeclared hmem
    obtain ⟨value, hv⟩ := hb.at?_of_root hs hown hhome fun above step below holder hpath ha =>
      hown hb.found (mem_spare_of_homePath hpath) ha
    exact Json.isSome_resolveLocal?_link hread hv
  · obtain ⟨value, hv⟩ := hb.at?_of_landed hs hown hlanded
    exact Json.isSome_resolveLocal?_link hread hv

/-- The link to the place of a target resolves, if it has no escape. -/
theorem Assembled.resolves_placed (hb : Assembled docs url bundled root walked start finish)
    (hs : start.Sound) (hown : docs.OwnSchemas url) (hproper : docs.Proper) {target : Url}
    {pointer : Pointer} (hp : (target, pointer) ∈ finish.places)
    (hlink : Text.hasEscape ("#" ++ pointer.text).toList = false) :
    (bundled.resolveLocal? ("#" ++ pointer.text)).isSome = true := by
  rcases (hb.lands_proper hs hproper).places hp with hp | ⟨place, rfl, _, hlanded⟩
  · rw [hb.places] at hp
    exact absurd hp List.not_mem_nil
  · obtain ⟨value, hv⟩ := hb.at?_of_landed hs hown hlanded
    exact Json.isSome_resolveLocal?_link (Path.hasEscape_link_iff.mp hlink) hv

/-- A link that was written resolves. -/
theorem Assembled.resolves_link (hb : Assembled docs url bundled root walked start finish)
    (hown : docs.OwnSchemas url) (hlinkable : docs.Linkable url) {text : String}
    (hm : text ∈ bundled.references) (hnot : ¬docs.Carries url text) :
    (bundled.resolveLocal? text).isSome = true := by
  have hproper : docs.Proper := hlinkable.proper
  have hs := hb.sound (hproper hb.found)
  have hlink := hlinkable.links hb hm hnot
  cases hb.origin hs hproper (hb.undisguised hs hlinkable.toCandid) text hm with
  | root h => exact absurd (.inl ⟨_, h⟩) hnot
  | named hn => exact hb.resolves_named hs hown hproper hn hlink
  | placed _ _ hp => exact hb.resolves_placed hs hown hproper hp hlink
  | beside hh hr hbeside => exact absurd (.inr ⟨_, _, _, hh, hr, hbeside⟩) hnot

/-- A text that was carried over resolves: what it leads to stands below nothing that was taken in. -/
theorem Assembled.resolves_carried (hb : Assembled docs url bundled root walked start finish)
    (hown : docs.OwnSchemas url) (hresolves : docs.Resolves) (hplain : docs.Bundleable url)
    {text : String} (hc : docs.Carries url text) : (bundled.resolveLocal? text).isSome = true := by
  have hs := hb.sound (hplain.proper hb.found)
  rcases hc with ⟨written, base, tree, target, hd, hwritten, ht, he, rfl⟩ |
    ⟨base, members, own, hh, hr, hbeside⟩
  · obtain ⟨target', found, place, ht', hfound, hl, _⟩ := hresolves hd hwritten
    cases ht.symm.trans ht'
    rw [he] at hfound
    cases hb.found.symm.trans hfound
    have hclear := hplain.clear ⟨base, tree, _, hd, hwritten, ht⟩ he hb.found hl
    rw [← Json.locateLocal?_hash] at hl
    exact hb.resolves_own hs hown hl hclear
  · obtain ⟨found, path, hfound, hl, hclear⟩ := hplain.beside hh hr hbeside
    cases hb.found.symm.trans hfound
    exact hb.resolves_own hs hown hl hclear

/-- Every reference of the bundled document resolves in it. -/
theorem Assembled.closed (hb : Assembled docs url bundled root walked start finish)
    (hobjects : root.HasObjects url) (hresolves : docs.Resolves) (hplain : docs.Bundleable url) :
    ∀ text ∈ bundled.references, (bundled.resolveLocal? text).isSome = true := by
  have hown : docs.OwnSchemas url := ownSchemas_of_hasObjects hb.found hobjects
  intro text hm
  by_cases hc : docs.Carries url text
  · exact hb.resolves_carried hown hresolves hplain hc
  · exact hb.resolves_link hown hplain.toLinkable hm hc

end

/-! ## Documents that write no escapes -/

section

variable {docs : Library} {url : Url}

/-- A hoisted name has no escape if the name that its target is to have has none, not even with two
digits behind it. -/
theorem Hoists.readBack {s : Progress} {target : Url} {name : String} {schema : Json}
    (h : Hoists docs url s target name schema)
    (hnames : ∀ {target position wanted}, docs.Targets target →
      hoistName? target.document (target.fragment.getD "") position = some wanted →
      Text.hasEscape (wanted.toList ++ ['0', '0']) = false) : (Step.member name).ReadBack := by
  obtain ⟨position, wanted, taken, hwanted, rfl⟩ := h.named
  have hzeros := hnames h.targeted hwanted
  show Text.hasEscape _ = false
  rcases Walk.freeName_eq_or taken wanted with heq | ⟨k, heq⟩
  · have hwritten := Text.hasEscape_append_of_digits hzeros List.not_mem_nil
    rwa [List.append_nil, ← heq] at hwritten
  · rw [heq, String.toList_append]
    exact Text.hasEscape_append_of_digits hzeros (Pointer.notMem_toString rfl)

/-- Where no name of the documents has an escape, and none to hoist under has one, numbered or not, no
link has one either. -/
theorem Library.Candid.linkable (h : docs.Candid)
    (hkeys : ∀ {base tree path members}, docs base = some tree →
      tree.at? path = some (.object members) →
      ∀ name ∈ Members.names members, Text.hasEscape name.toList = false)
    (hnames : ∀ {target position wanted}, docs.Targets target →
      hoistName? target.document (target.fragment.getD "") position = some wanted →
      Text.hasEscape (wanted.toList ++ ['0', '0']) = false) : docs.Linkable url where
  toCandid := h
  links {root walked bundled start finish text} hb hm hnot := by
    have hs := hb.sound (h.proper hb.found)
    have hhoisted : ∀ {name schema}, finish.hoisted.lookup name = some schema →
        (Step.member name).ReadBack := by
      intro name schema hl
      obtain ⟨target, hhoists⟩ := hb.hoisted_images hs h.proper _ _ (mem_of_lookup hl)
      exact hhoists.readBack hnames
    have hlands := hb.lands Step.lenient_readBack hs
      (fun hd => Json.tidy_of_proper (h.proper hd) (hkeys hd)) hhoisted
    cases hb.origin hs h.proper (hb.undisguised hs h) text hm with
    | root hkept => exact absurd (.inl ⟨_, hkept⟩) hnot
    | named hn =>
        rw [← ofPath_homePath, Path.hasEscape_link_iff]
        apply Step.lenient_readBack.homePath
        rcases hlands.names hn with hn | ⟨hname, _⟩
        · -- the name of an alias is one of the root
          obtain ⟨declared, schema, _, hdeclared, hmem, _⟩ := hb.alias_eq hn
          have hat := Json.componentSchemas?_eq_some_iff.mp hdeclared
          exact hkeys hb.found hat _ (List.mem_map_of_mem (f := Prod.fst) hmem)
        · exact hname
    | placed _ _ hp =>
        rcases hlands.places hp with hp | ⟨place, rfl, hmeets, _⟩
        · rw [hb.places] at hp
          exact absurd hp List.not_mem_nil
        · exact Path.hasEscape_link_iff.mpr hmeets
    | beside hh hr hbeside => exact absurd (.inr ⟨_, _, _, hh, hr, hbeside⟩) hnot

end

/-! ## Checking the conditions -/

/-- Whether a reference beside `base` resolves, but not to the text of another one. -/
def Library.isResolved (docs : Library) (base : Url) (text : String) : Bool :=
  docs.isApart base base text &&
    match joinReference base text with
    | .ok target => (docs.node? target).isSome
    | .error _ => false

/-- Whether all references of listed documents resolve. -/
def Library.resolves (docs : Library) (entries : List (Url × Json)) : Bool :=
  entries.all fun (base, tree) => tree.references.all (docs.isResolved base)

/-- Whether the root, its components and its component schemas are objects of its own. -/
def Json.hasObjects (url : Url) (root : Json) : Bool :=
  spare.all fun path => (root.at? path).all fun value => value.asObject?.isSome && value.isOwn url

/-- Whether no value that a path takes a step from is a reference to another document. -/
def Json.isOwnAbove (url : Url) (tree : Json) : Path → Bool
  | [] => true
  | step :: rest => tree.isOwn url && (tree.step? step).all (isOwnAbove url · rest)

/-- Whether a target is hoisted under a name other than `$ref` that makes no escape with digits behind
it, if at all, and does not stand in the root below a reference to another document. -/
def Library.isLinkable (docs : Library) (url target : Url) : Bool :=
  ((hoistName? target.document (target.fragment.getD "") .schema).all fun name =>
      name ≠ "$ref" && !Text.hasEscape (name.toList ++ ['0', '0'])) &&
    (target.document ≠ url || (docs url).all fun root =>
      (root.locate? (target.fragment.getD "")).all (root.isOwnAbove url))

/-- Whether listed documents are bundleable, where nothing stands beside the text of a reference, no
member `$ref` is a reference, and no name has an escape. -/
def Library.isBundleable (docs : Library) (entries : List (Url × Json)) (url : Url) : Bool :=
  isFlat entries && isUndisguised entries &&
    allNames (fun name => !Text.hasEscape name.toList) entries && entries.all fun (base, tree) =>
      tree.references.all fun text => (joinReference base text).toOption.all (docs.isLinkable url)

section

variable {docs : Library} {url : Url} {entries : List (Url × Json)}

theorem resolves_of_listed
    (hfinite : ∀ {base tree}, docs base = some tree → (base, tree) ∈ entries)
    (h : docs.resolves entries = true) : docs.Resolves := by
  intro base tree text hd hm
  have htext := List.all_eq_true.mp (List.all_eq_true.mp h _ (hfinite hd)) text hm
  rw [Library.isResolved, Bool.and_eq_true] at htext
  obtain ⟨hapart, hleads⟩ := htext
  split at hleads
  · next target ht =>
      obtain ⟨node, hn⟩ := Option.isSome_iff_exists.mp hleads
      obtain ⟨found, hfound, hresolve⟩ := Option.bind_eq_some_iff.mp hn
      obtain ⟨place, hl, _⟩ := Json.exists_locate?_of_resolve? hresolve
      refine ⟨target, found, place, ht, hfound, hl, ?_⟩
      rintro above holder rfl hh
      exact reference?_eq_none_of_isApart hapart ht hfound hl hh
  · simp at hleads

theorem hasObjects_of_listed {root : Json} (h : root.hasObjects url = true) :
    root.HasObjects url := by
  intro path value hp ha
  have hvalue := List.all_eq_true.mp h path hp
  rw [ha, Option.all_some, Bool.and_eq_true] at hvalue
  refine ⟨?_, own_of_isOwn hvalue.2⟩
  cases value with
  | object members => exact ⟨members, rfl⟩
  | _ => cases hvalue.1

theorem allAbove_of_isOwnAbove {tree : Json} {path : Path} (h : tree.isOwnAbove url path = true) :
    tree.AllAbove (Own url url) path := by
  induction path generalizing tree with
  | nil => exact Json.allAbove_nil _ tree
  | cons step rest ih =>
      rw [Json.isOwnAbove, Bool.and_eq_true] at h
      refine Json.allAbove_cons.mpr ⟨own_of_isOwn h.1, fun child hc => ih ?_⟩
      have hrest := h.2
      rw [Option.mem_def.mp hc, Option.all_some] at hrest
      exact hrest

/-- At any position a target is hoisted under the name that it has at the position of a schema. -/
theorem hoistName?_schema {document : Url} {fragment name : String} {position : Position}
    (h : hoistName? document fragment position = some name) :
    hoistName? document fragment .schema = some name := by
  rw [hoistName?] at h ⊢
  split at h
  · split at h
    · exact h
    · cases h
  · exact h
  · exact h
  · cases h

theorem Library.Targets.isLinkable
    (hfinite : ∀ {base tree}, docs base = some tree → (base, tree) ∈ entries)
    (h : docs.isBundleable entries url = true) {target : Url} (ht : docs.Targets target) :
    docs.isLinkable url target = true := by
  obtain ⟨base, tree, text, hd, hm, ht⟩ := ht
  rw [Library.isBundleable, Bool.and_eq_true] at h
  have htext := List.all_eq_true.mp (List.all_eq_true.mp h.2 _ (hfinite hd)) text hm
  rw [ht] at htext
  exact htext

/-- Documents that pass the check are bundleable. -/
theorem bundleable_of_listed
    (hfinite : ∀ {base tree}, docs base = some tree → (base, tree) ∈ entries)
    (h : docs.isBundleable entries url = true) : docs.Bundleable url := by
  have hname : ∀ {target position name}, docs.Targets target →
      hoistName? target.document (target.fragment.getD "") position = some name →
      name ≠ "$ref" ∧ Text.hasEscape (name.toList ++ ['0', '0']) = false := by
    intro target position name ht hn
    have hlinkable := ht.isLinkable hfinite h
    rw [Library.isLinkable, hoistName?_schema hn, Option.all_some, Bool.and_eq_true] at hlinkable
    simpa using hlinkable.1
  have hparts := h
  simp only [Library.isBundleable, Bool.and_eq_true] at hparts
  obtain ⟨⟨⟨hflat, hundisguised⟩, hnames⟩, _⟩ := hparts
  have hu : docs.Undisguised [] := undisguised_of_isUndisguised hfinite hundisguised rfl
  have hplain := plain_of_isFlat hfinite hflat hu
  have hcandid : docs.Candid :=
    ⟨hplain.proper, hu.member, fun ht hn => absurd rfl (hname ht hn).1⟩
  refine ⟨hcandid.linkable ?_ fun ht hn => (hname ht hn).2, ?_, ?_⟩
  · intro base tree path members hd ha name hm
    simpa using of_allNames hfinite hnames hd ha hm
  · intro target root path ht he hroot hl
    have hlinkable := ht.isLinkable hfinite h
    rw [Library.isLinkable, Bool.and_eq_true, hroot, Option.all_some, hl, Option.all_some] at hlinkable
    exact allAbove_of_isOwnAbove (by simpa [he] using hlinkable.2)
  · intro base members own text hh hr hm
    have hlone := hplain.flat hh hr
    rw [Json.references, hr, Option.toList_some, List.singleton_append, List.cons.injEq] at hlone
    rw [hlone.2] at hm
    cases hm

end

/-! ## Whole bundlings -/

/-- A root with some members, and another document beside it. -/
def rootAndOther (members : Members) (file : String) (other : Json) : Shelf :=
  [(rootUrl, .object (("openapi", .string "3.0.0") :: members)),
   (⟨"mem", some {}, .segments [file], none, none⟩, other)]

/-- Documents with signs of percentage in their names, also where links are written: to the member
`50%` of the root, where a target is taken in first, and to a schema that is hoisted as `5%off`. -/
def percentShelf : Shelf :=
  let link text := Json.object [("$ref", .string text)]
  rootAndOther [("50%", link "e#/y"), ("z", link "e#/y"), ("items", link "e#/definitions/5%off")] "e"
    (.object [("y", .object [("100%", .bool true)]),
      ("definitions", .object [("5%off", .object [("not", link "#/definitions/5%off")])])])

/-- Documents whose references all resolve, and why they cannot be bundled. -/
def unbundleable : List (Shelf × Error) :=
  let link text := Json.object [("$ref", .string text)]
  let other := Json.object [("y", .bool true), ("s", .string "t")]
  -- a text is taken in as a member `$ref`
  [(rootAndOther [("x", .object [("$ref", link "e#/s")])] "e" other,
      .unresolvedReference "t" "mem:///r"),
  -- a text is hoisted under the name `$ref`
    (rootAndOther [("schema", link "$ref")] "$ref" (.string "t"),
      .unresolvedReference "t" "mem:///r"),
  -- what stands beside a reference to another document is taken away
    (rootAndOther [("x", .object [("$ref", .string "e#/y"), ("k", .bool true)]), ("z", link "#/x/k")]
        "e" other,
      .unresolvedReference "#/x/k" "mem:///r"),
  -- what stands beside a reference into the root is not walked
    (rootAndOther [("x", .object [("$ref", .string "#/z"), ("y", link "e#/y")]), ("z", .null)]
        "e" other,
      .unresolvedReference "e#/y" "mem:///r"),
  -- the root is taken in and is no object then, but a schema is to be added
    (rootAndOther [("$ref", .string "e#/items")] "e"
        (.object [("items", .array [link "#/definitions/a"]),
          ("definitions", .object [("a", .bool true)])]),
      .parse .rootNotObject),
  -- a link is written to a name that holds an escape
    (rootAndOther [("a%20b", link "e#/y"), ("z", link "e#/y")] "e" other,
      .unresolvedReference "#/a%20b" "mem:///r"),
    (rootAndOther [("x", link "e#/definitions/a%2520b")] "e"
        (.object [("definitions", .object [("a%20b", .bool true)])]),
      .unresolvedReference "#/components/schemas/a%20b" "mem:///r")]

/-- Whether bundling fails for a reason. -/
def failsWith (shelf : Shelf) (error : Error) : Bool :=
  match bundleAt .empty (fuelBound shelf) rootUrl { shelf } with
  | .ok _ _ => false
  | .error found _ => found = error

theorem exists_of_failsWith {shelf : Shelf} {error : Error} (h : failsWith shelf error = true) :
    ∃ finish, bundleAt .empty (fuelBound shelf) rootUrl { shelf } = .error error finish := by
  unfold failsWith at h
  split at h
  · simp at h
  · next found finish hrun =>
      rw [decide_eq_true_iff] at h
      exact ⟨finish, h ▸ hrun⟩

end OpenApi
