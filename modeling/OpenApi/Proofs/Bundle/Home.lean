import OpenApi.Proofs.Bundle.Frame
import OpenApi.Proofs.Bundle.Siblings
import OpenApi.Proofs.Url.Fragment

/-!
# An alias is the one home of its target

A component schema of the root may be a reference to another document. Its name is reserved for its
target before the walk, and the first such component of a target gets it (`lookup_reserveNames`).
`bundle_alias_home` says what follows for all references to the target that the walk meets, wherever
and whenever it meets them: each becomes a link to the component, none has anything hoisted, and the
component itself holds what came of the target.

Whether the component was filled when a reference is met makes no difference, because the verdict does
not depend on it. It depends on the name, which is there from the start and is never lost
(`Meets.grows`), and on nothing being hoisted under it, which holds from the start to the end. So the
verdict is one and the same for every call: a link, but at the home of the name.

The component is walked unless something above it is a reference. A reference to another document
takes in its target as a whole, and the component is gone: `not_home_replacedShelf`. A reference into
the root keeps what stands beside it as it was written, and the text of the component does not resolve
in the bundled document, so such a bundling fails.
-/

namespace OpenApi

/-! ## The first alias -/

/-- The component `name` is the first one that is a reference to `target`, in another document. -/
def FirstAlias (rootUrl : Url) (declared : Members) (target : Url) (name : String) : Prop :=
  ∃ before schema text after, declared = before ++ (name, schema) :: after ∧
    schema.reference? = some text ∧ joinReference rootUrl text = .ok target ∧
    target.document ≠ rootUrl ∧ ∀ earlier, ¬Alias rootUrl before target earlier

/-- The name of the first alias is reserved for its target. -/
theorem lookup_reserveNames {rootUrl target : Url} {declared : Members} {name : String}
    {names names' : List (Url × String)} (h : reserveNames rootUrl declared names = .ok names')
    (hnone : names.lookup target = none) (ha : FirstAlias rootUrl declared target name) :
    names'.lookup target = some name := by
  obtain ⟨before, schema, text, after, rfl, hr, ht, he, hfirst⟩ := ha
  induction before generalizing names with
  | nil =>
      rw [List.nil_append, reserveNames_cons] at h
      split at h
      · next names₁ hone =>
          have hnames : names₁ = names ++ [(target, name)] := by
            simp only [reserveNames, hr, ht] at hone
            rw [if_pos ⟨he, Option.isNone_iff_eq_none.mpr hnone⟩] at hone
            cases hone
            rfl
          obtain ⟨new, rfl, _⟩ := reserveNames_eq_append h
          rw [hnames, List.lookup_append, List.lookup_append, hnone, List.lookup_cons_self]
          rfl
      · cases h
  | cons entry rest ih =>
      obtain ⟨other, own⟩ := entry
      rw [List.cons_append, reserveNames_cons] at h
      split at h
      · next names₁ hone =>
          refine ih ?_ h fun earlier ha => hfirst earlier (ha.cons _)
          rcases reserveNames_singleton hone with rfl | ⟨text', target', hr', ht', he', _, rfl⟩
          · exact hnone
          · -- an earlier component has another target
            have hne : target ≠ target' := by
              rintro rfl
              exact hfirst other ⟨own, text', List.mem_cons_self, hr', ht', he'⟩
            rw [List.lookup_append, hnone, List.lookup_cons, beq_eq_false_iff_ne.mpr hne]
            rfl
      · cases h

/-! ## The tables along the calls of a walk -/

section

variable {docs : Library} {rootUrl target : Url} {whole call made : Call} {name : String}

theorem Makes.grows (h : Makes docs rootUrl call made) (hc : call.Sane docs rootUrl) :
    call.before.Grows made.before ∧ made.after.Grows call.after := by
  obtain ⟨_, hs, _⟩ := hc
  cases h with
  | array | object => exact ⟨.refl _, .refl _⟩
  | item hv hr => exact ⟨.refl _, hr.grows (hv.sound hs)⟩
  | items hv hr => exact ⟨hv.grows hs, .refl _⟩
  | member hv hr => exact ⟨.refl _, hr.grows (hv.sound hs)⟩
  | members hv hr => exact ⟨hv.grows hs, .refl _⟩
  | inlined => exact ⟨Progress.Grows.atPlace.withShelf, .refl _⟩
  | @hoisted _ _ _ _ _ _ wanted _ _ _ _ s _ _ _ hv hw _ h =>
      obtain ⟨_, hn, hp, _⟩ := verdict_eq_hoist hv
      exact ⟨(Progress.Grows.withName hn hp).withShelf,
        .addSchema (h.lookup_hoisted_of_free hs (hw ▸ Walk.freeName_notMem s.taken wanted))⟩

/-- The tables grow from the start of the whole to every call, and from every call to its end. -/
theorem Meets.grows (h : Meets docs rootUrl whole call) (hd : docs.Proper)
    (hw : whole.Sane docs rootUrl) :
    whole.before.Grows call.before ∧ call.after.Grows whole.after := by
  induction h with
  | refl => exact ⟨.refl _, .refl _⟩
  | tail hmeets hmakes ih =>
      obtain ⟨hbefore, hafter⟩ := hmakes.grows (Meets.within hmeets hd hw).1
      exact ⟨ih.1.trans hbefore, hafter.trans ih.2⟩

/-- A target has a name under which nothing is hoisted. -/
structure Progress.Reserves (s : Progress) (target : Url) (name : String) : Prop where
  named : s.names.lookup target = some name
  free : s.hoisted.lookup name = none

/-- The verdict on a reference to such a target is a link, but at the home of the name. -/
theorem Progress.Reserves.verdict_eq {s : Progress} (h : s.Reserves target name)
    (he : target.document ≠ rootUrl) (pointer : Pointer) (position : Position) :
    verdict rootUrl target pointer position s =
      if pointer = Pointer.home name then .inline
      else .link ("#" ++ (Pointer.home name).text) := by
  rw [verdict, if_neg he, h.named]
  dsimp only
  rw [h.free]
  simp

/-- A name that is reserved from the start to the end is reserved at every call. -/
theorem Meets.reserves (h : Meets docs rootUrl whole call) (hd : docs.Proper)
    (hw : whole.Sane docs rootUrl) (hstart : whole.before.names.lookup target = some name)
    (hfree : whole.after.hoisted.lookup name = none) : call.before.Reserves target name := by
  obtain ⟨hbefore, hafter⟩ := h.grows hd hw
  have hsane := (h.within hd hw).1
  have hgrows := (hsane.run.grows hsane.sound).trans hafter
  refine ⟨hbefore.names hstart, ?_⟩
  cases hl : call.before.hoisted.lookup name with
  | none => rfl
  | some schema => cases (hgrows.hoisted hl).symm.trans hfree

/-- A reference whose verdict is a link gets its text. -/
theorem Call.IsRun.eq_withReference {value : Json} {text new : String}
    (h : call.IsRun docs rootUrl) (hp : call.part = .value value)
    (hr : value.reference? = some text) (ht : joinReference call.base text = .ok target)
    (hv : verdict rootUrl target (.ofPath call.path) call.position call.before = .link new) :
    call.result = .value (value.withReference new) := by
  obtain ⟨base, path, position, part, before, result, after⟩ := call
  subst hp
  rw [Call.IsRun] at h
  cases h.replaced hr ht with
  | link hv' =>
      cases hv.symm.trans hv'
      rfl
  | inlined hv' | hoisted hv' => cases hv.symm.trans hv'

/-- What a reference to such a target takes in, it takes in at the home of the name. -/
theorem Makes.path_eq_of_reserves (h : Makes docs rootUrl call made)
    (hc : call.before.Reserves target name) (hr : call.Refers target)
    (he : target.document ≠ rootUrl) :
    Pointer.ofPath call.path = Pointer.home name ∧ made.path = call.path := by
  have hverdict := hc.verdict_eq he (.ofPath call.path) call.position
  cases h.takesIn hr with
  | inlined hv =>
      rw [hv] at hverdict
      split at hverdict
      · next hhome => exact ⟨hhome, rfl⟩
      · cases hverdict
  | hoisted hv =>
      rw [hv] at hverdict
      split at hverdict <;> cases hverdict

end

/-! ## What stands above an alias -/

/-- Where not all values above a path have a property, there is a first one that has not. -/
theorem Json.exists_of_not_allAbove {P : Json → Prop} {tree : Json} {path : Path}
    (h : ¬tree.AllAbove P path) :
    ∃ above step below holder, path = above ++ step :: below ∧ tree.at? above = some holder ∧
      ¬P holder ∧ tree.AllAbove P above := by
  induction path generalizing tree with
  | nil => exact absurd (allAbove_nil P tree) h
  | cons step rest ih =>
      by_cases hp : P tree
      · rw [allAbove_cons, not_and] at h
        have hbelow := h hp
        push Not at hbelow
        obtain ⟨child, hc, hnot⟩ := hbelow
        obtain ⟨above, next, below, holder, rfl, hholder, hholds, habove⟩ := ih hnot
        refine ⟨step :: above, next, below, holder, rfl, ?_, hholds, ?_⟩
        · exact Option.bind_eq_some_iff.mpr ⟨child, hc, hholder⟩
        · refine allAbove_cons.mpr ⟨hp, fun child' hc' => ?_⟩
          cases hc.symm.trans hc'
          exact habove
      · exact ⟨[], step, rest, tree, rfl, rfl, hp, allAbove_nil P tree⟩

/-- A new text leaves what stands beside it. -/
theorem Json.at?_withReference {value : Json} {step : Step} (new : String)
    (hstep : step ≠ .member "$ref") (rest : Path) :
    (value.withReference new).at? (step :: rest) = value.at? (step :: rest) := by
  rw [at?_cons, at?_cons]
  cases step with
  | member name =>
      have hname : name ≠ "$ref" := fun heq => hstep (heq ▸ rfl)
      rw [← member?_eq_step?, ← member?_eq_step?, member?_withReference new hname]
  | item index => cases value <;> rfl

/-- The text of a Reference Object is no Reference Object, nor does it hold one. -/
theorem Json.step_ne_of_reference? {value found : Json} {text text' : String} {step : Step}
    {rest : Path} (hr : value.reference? = some text) (ha : value.at? (step :: rest) = some found)
    (hr' : found.reference? = some text') : step ≠ .member "$ref" := by
  rintro rfl
  obtain ⟨members, rfl, hl⟩ := exists_members_of_reference? hr
  obtain ⟨child, hc, ha⟩ := Option.bind_eq_some_iff.mp ha
  cases hl.symm.trans hc
  cases rest with
  | nil =>
      cases ha
      cases hr'
  | cons step rest => cases step <;> cases ha

/-- A reference text that resolves in the tree that holds it stays in the document of its base. -/
theorem document_of_isSome_resolveLocal? {tree : Json} {base target : Url} {text : String}
    (h : (tree.resolveLocal? text).isSome = true) (ht : joinReference base text = .ok target) :
    target.document = base.document := by
  have hlocal : (Reference.parse text).isLocal = true := by
    rw [Json.resolveLocal?] at h
    split at h
    · assumption
    · cases h
  rw [joinReference] at ht
  split at ht
  · next hjoin =>
      cases ht
      exact Url.document_of_join_local hlocal hjoin
  · cases ht

section

variable {docs : Library} {url target : Url} {document : Document} {root walked : Json}
  {start finish : Progress} {name text : String} {schema : Json}

/-- Nothing above an alias is a Reference Object. -/
theorem Bundled.allAbove_alias (hb : Bundled docs url document root walked start finish)
    (hs : start.Sound) (hd : docs.Proper) (hown : docs.OwnSchemas url)
    (ha : root.at? (homePath name) = some schema) (hfree : finish.hoisted.lookup name = none)
    (hr : schema.reference? = some text) (ht : joinReference url text = .ok target)
    (he : target.document ≠ url) : root.AllAbove (·.reference? = none) (homePath name) := by
  by_contra hnot
  obtain ⟨above, step, below, holder, hsplit, hholder, hreference, habove⟩ :=
    Json.exists_of_not_allAbove hnot
  obtain ⟨own, hholds⟩ := Option.ne_none_iff_exists'.mp hreference
  obtain ⟨call, _, ⟨hbase, _, hpart⟩, _, hrun, value', hresult, hwalked⟩ :=
    hb.toWalked.at?_of_reached hs hd hholder habove
  rw [Call.IsRun, hpart, hresult, hbase] at hrun
  obtain ⟨inside, hinside, _⟩ := hrun.exists_replaced hholds
  have hroot : inside.document = url :=
    hown hb.found (mem_spare_of_homePath hsplit) hholder hholds hinside
  obtain ⟨rfl, _⟩ := hrun.eq_withReference hholds hinside hroot
  -- so the alias stands in the bundled document as it was written
  rw [hsplit, Json.at?_append, hholder, Option.bind_some] at ha
  have hbundled : document.root.at? (homePath name) = some schema := by
    rw [at?_homePath_assembled hb.nodup_hoisted hb.assembled, hfree, Option.none_or, hsplit,
      Json.at?_append, hwalked, Option.bind_some,
      Json.at?_withReference _ (Json.step_ne_of_reference? hholds ha hr), ha]
  have hresolves := hb.closed text
    (Json.references_subset_of_at? hbundled (Json.mem_references_of_reference? hr))
  have hself : url.document = url := by rw [← hroot, Url.document_document]
  exact he ((document_of_isSome_resolveLocal? hresolves ht).trans hself)

/-- At the home of an alias stands the image of its target. -/
theorem Bundled.exists_content (hb : Bundled docs url document root walked start finish)
    (hs : start.Sound) (hd : docs.Proper) (hown : docs.OwnSchemas url)
    (hreserved : start.names.lookup target = some name)
    (ha : root.at? (homePath name) = some schema) (hfree : finish.hoisted.lookup name = none)
    (hr : schema.reference? = some text) (ht : joinReference url text = .ok target)
    (he : target.document ≠ url) :
    ∃ node content, docs.node? target = some node ∧
      document.root.at? (homePath name) = some content ∧
      Image docs url finish target.document (homePath name) (.value node) (.value content) := by
  have hsane := hb.sane_ofRoot hs hd
  obtain ⟨call, hmeets, ⟨hbase, hpath, hpart⟩, _, hrun, content, hresult, hwalked⟩ :=
    hb.toWalked.at?_of_reached hs hd ha (hb.allAbove_alias hs hd hown ha hfree hr ht he)
  have hverdict : verdict url target (.ofPath call.path) call.position call.before = .inline := by
    rw [(hmeets.reserves hd hsane hreserved hfree).verdict_eq he, hpath, ofPath_homePath, if_pos rfl]
  obtain ⟨copy, node, hmakes, hn, ⟨hcopybase, hcopypath, hcopypart⟩, hcopy⟩ :=
    hrun.exists_copy hpart hr (hbase ▸ ht) hverdict
  have hcopymeets : Meets docs url _ copy := hmeets.tail hmakes
  obtain ⟨⟨hcopyrun, hcopysound, _⟩, _⟩ := hcopymeets.within hd hsane
  rw [Call.IsRun, hcopybase, hcopypath, hcopypart, hcopy, hresult, hpath] at hcopyrun
  refine ⟨node, content, hn, ?_, ?_⟩
  · rw [at?_homePath_assembled hb.nodup_hoisted hb.assembled, hfree, Option.none_or, hwalked]
  · exact (hcopyrun.image hcopysound).mono (hcopymeets.grows hd hsane).2

end

/-- Take the first component schema of the root that is a reference to a target in another document,
and let none of the root, its components and its component schemas be a reference to another
document. Every reference to the target that the walk meets at another path has become a link to the
component. No reference to the target takes it in but at the home of the component, and nothing is
hoisted for it. At the home stands the image of what the target designates, read relative to the
document of the target. -/
theorem bundle_alias_home {source : Source} {fuel : Nat} {url target : Url} {shelf : Shelf}
    {document : Document} {finish : Progress} {root : Json} {declared : Members} {name : String}
    (h : bundleAt source fuel url { shelf } = .ok document finish)
    (hd : Library.Proper (available source shelf))
    (hown : Library.OwnSchemas (available source shelf) url)
    (hroot : available source shelf url = some root)
    (hdeclared : root.componentSchemas? = some declared)
    (halias : FirstAlias url declared target name) :
    ∃ start walked, bundleStart source url { shelf } = .ok root start ∧
      root.walk (replaceReference source url fuel url) .root .other start = .ok walked finish ∧
      (∀ {call}, Meets (available source shelf) url (.ofRoot url root walked start finish) call →
        call.Refers target → call.path ≠ homePath name →
        ∃ found, document.root.at? call.path = some found ∧
          found.reference? = some ("#" ++ (Pointer.home name).text)) ∧
      (∀ {call made},
        Meets (available source shelf) url (.ofRoot url root walked start finish) call →
        call.Refers target → Makes (available source shelf) url call made →
        call.path = homePath name ∧ made.path = homePath name) ∧
      finish.Reserves target name ∧
      ∃ node content, Library.node? (available source shelf) target = some node ∧
        document.root.at? (homePath name) = some content ∧
        Image (available source shelf) url finish target.document (homePath name)
          (.value node) (.value content) := by
  obtain ⟨root', walked, start, hstart, hwalk, hb⟩ := bundle_walk rfl h
  cases hb.found.symm.trans hroot
  have hs := sound_of_bundleStart (hd hb.found) hstart
  have hsane := hb.sane_ofRoot hs hd
  have hreserved : start.names.lookup target = some name := by
    have hnames := hb.names
    rw [hdeclared] at hnames
    exact lookup_reserveNames hnames rfl halias
  obtain ⟨before, schema, text, after, rfl, hr, ht, he, _⟩ := halias
  obtain ⟨ha, hfree⟩ := hb.home_alias hs (hd hb.found) hdeclared
    (List.mem_append_right before List.mem_cons_self)
  obtain ⟨node, content, hn, hcontent, himage⟩ :=
    hb.exists_content hs hd hown hreserved ha hfree hr ht he
  -- a call at the pointer of the home is at its path, since both stand in the bundled document
  have hhome : ∀ {call}, Meets (available source shelf) url
      (.ofRoot url root walked start finish) call → call.Refers target →
      Pointer.ofPath call.path = Pointer.home name → call.path = homePath name := by
    intro call hmeets hrefers hpointer
    obtain ⟨value, _, hpart, _, _⟩ := hrefers
    obtain ⟨⟨hrun, _, _⟩, _⟩ := hmeets.within hd hsane
    rw [Call.IsRun, hpart] at hrun
    obtain ⟨value', hresult⟩ := hrun.exists_value
    obtain ⟨found, hfound, _⟩ := hb.at?_of_meets hs hd hown hmeets hresult
    exact Json.path_eq_of_ofPath_eq hfound hcontent (hpointer.trans (ofPath_homePath name).symm)
  refine ⟨start, walked, hstart, hwalk, fun {call} hmeets hrefers hpath => ?_,
    fun {call made} hmeets hrefers hmakes => ?_, ⟨(hb.runs.grows hs).names hreserved, hfree⟩,
    node, content, hn, hcontent, himage⟩
  · have hreserves := hmeets.reserves hd hsane hreserved hfree
    have hverdict := hreserves.verdict_eq he (.ofPath call.path) call.position
    rw [if_neg fun hpointer => hpath (hhome hmeets hrefers hpointer)] at hverdict
    obtain ⟨value, own, hpart, hholds, hown'⟩ := hrefers
    obtain ⟨⟨hrun, _, _⟩, _⟩ := hmeets.within hd hsane
    have hresult := hrun.eq_withReference hpart hholds hown' hverdict
    obtain ⟨found, hfound, hkept⟩ := hb.at?_of_meets hs hd hown hmeets hresult
    exact ⟨found, hfound, hkept (reference?_withReference _ hholds)⟩
  · obtain ⟨hpointer, hmade⟩ :=
      hmakes.path_eq_of_reserves (hmeets.reserves hd hsane hreserved hfree) hrefers he
    have hpath := hhome hmeets hrefers hpointer
    exact ⟨hpath, hmade.trans hpath⟩

/-- The component schema `N` is a reference to a schema that refers to itself. Another component and a
member that is walked before both refer to the same schema. -/
def aliasedRoot : Json :=
  .object [("openapi", .string "3.0.0"), ("x", .object [("$ref", .string "f#/S")]),
    ("components", .object [("schemas", .object [("N", .object [("$ref", .string "f#/S")]),
      ("M", .object [("$ref", .string "f#/S")])])])]

/-- The document of the schema. -/
def selfDocument : Url × Json :=
  (⟨"mem", some {}, .segments ["f"], none, none⟩,
    .object [("S", .object [("type", .string "object"),
      ("properties", .object [("p", .object [("$ref", .string "#/S")])])])])

/-- The component is the home of the schema, and both other references lead there. -/
theorem home_aliasedRoot :
    ∃ declared target document finish,
      Library.Proper (available .empty [(rootUrl, aliasedRoot), selfDocument]) ∧
      Library.OwnSchemas (available .empty [(rootUrl, aliasedRoot), selfDocument]) rootUrl ∧
      aliasedRoot.componentSchemas? = some declared ∧ FirstAlias rootUrl declared target "N" ∧
      bundleAt .empty 10 rootUrl { shelf := [(rootUrl, aliasedRoot), selfDocument] }
        = .ok document finish ∧
      (∀ path ∈ [[.member "x"], homePath "M"], ∃ found, document.root.at? path = some found ∧
        found.reference? = some "#/components/schemas/N") ∧
      finish.Reserves target "N" ∧ (document.root.at? (homePath "N")).isSome = true := by
  have hproper : ∀ entry ∈ [(rootUrl, aliasedRoot), selfDocument], entry.2.proper = true := by
    decide
  have hd : Library.Proper (available .empty [(rootUrl, aliasedRoot), selfDocument]) :=
    fun hd => hproper _ (mem_of_available_empty hd)
  have hown : Library.OwnSchemas (available .empty [(rootUrl, aliasedRoot), selfDocument]) rootUrl :=
    ownSchemas_of_hasOwnSchemas (by decide +kernel)
  have hrun : bundlesTo .empty 10 rootUrl [(rootUrl, aliasedRoot), selfDocument]
      (fun _ _ => true) = true := by decide +kernel
  obtain ⟨document, finish, h, _⟩ := exists_of_bundlesTo hrun
  obtain ⟨target, ht, he⟩ : ∃ target, joinReference rootUrl "f#/S" = .ok target ∧
      target.document ≠ rootUrl := ⟨_, rfl, by decide⟩
  have halias : FirstAlias rootUrl _ target "N" :=
    ⟨[], .object [("$ref", .string "f#/S")], "f#/S", [("M", .object [("$ref", .string "f#/S")])],
      rfl, rfl, ht, he, fun _ ⟨_, _, hm, _⟩ => List.not_mem_nil hm⟩
  obtain ⟨start, walked, hstart, hwalk, hlinks, _, hreserves, _, content, _, hcontent, _⟩ :=
    bundle_alias_home h hd hown rfl rfl halias
  obtain ⟨_, hsees, _⟩ := bundleStart_run_ok rfl hstart
  have hruns : Runs (available .empty [(rootUrl, aliasedRoot), selfDocument]) rootUrl rootUrl []
      .other (.value aliasedRoot) start (.value walked) finish := runs_of_walk hsees hwalk
  refine ⟨_, target, document, finish, hd, hown, rfl, halias, h, fun path hm => ?_, hreserves, ?_⟩
  · obtain ⟨habove, ha, hne⟩ : aliasedRoot.AllAbove (·.reference? = none) path ∧
        aliasedRoot.at? path = some (.object [("$ref", .string "f#/S")]) ∧ path ≠ homePath "N" := by
      rw [List.mem_cons, List.mem_singleton] at hm
      rcases hm with rfl | rfl
      · exact ⟨by decide, rfl, by decide⟩
      · exact ⟨by decide, rfl, by decide⟩
    obtain ⟨call, hmeets, hbase, hpath, hpart⟩ := hruns.meets_at? habove ha
    rw [List.nil_append] at hpath
    obtain ⟨found, hfound, hlink⟩ :=
      hlinks hmeets ⟨_, _, hpart, rfl, hbase ▸ ht⟩ (hpath ▸ hne)
    exact ⟨found, hpath ▸ hfound, hlink⟩
  · rw [hcontent]
    rfl

/-- The components of the root are a reference to another document. Beside it stand component schemas,
one of which is an alias. -/
def replacedRoot : Json :=
  .object [("openapi", .string "3.0.0"), ("components", .object [("$ref", .string "e#/c"),
    ("schemas", .object [("N", .object [("$ref", .string "f#/S")])])])]

/-- The root and the two documents that it refers to. -/
def replacedShelf : Shelf :=
  [(rootUrl, replacedRoot),
   (⟨"mem", some {}, .segments ["e"], none, none⟩, .object [("c", .object [])]),
   (⟨"mem", some {}, .segments ["f"], none, none⟩,
    .object [("S", .object [("type", .string "string")])])]

/-- The alias is gone from the bundled document: the components were replaced as a whole. -/
theorem not_home_replacedShelf :
    ∃ declared target document finish,
      available .empty replacedShelf rootUrl = some replacedRoot ∧
      replacedRoot.componentSchemas? = some declared ∧
      (Json.object declared).reference? = none ∧ FirstAlias rootUrl declared target "N" ∧
      (Library.node? (available .empty replacedShelf) target).isSome = true ∧
      bundleAt .empty 10 rootUrl { shelf := replacedShelf } = .ok document finish ∧
      document.root.at? (homePath "N") = none := by
  have hrun : bundlesTo .empty 10 rootUrl replacedShelf (fun document _ =>
      (document.root.at? (homePath "N")).isNone) = true := by decide +kernel
  obtain ⟨document, finish, h, hgone⟩ := exists_of_bundlesTo hrun
  obtain ⟨target, ht, he, hn⟩ : ∃ target, joinReference rootUrl "f#/S" = .ok target ∧
      target.document ≠ rootUrl ∧
      (Library.node? (available .empty replacedShelf) target).isSome = true :=
    ⟨_, rfl, by decide, by decide +kernel⟩
  exact ⟨_, target, document, finish, rfl, rfl, rfl,
    ⟨[], .object [("$ref", .string "f#/S")], "f#/S", [], rfl, rfl, ht, he,
      fun _ ⟨_, _, hm, _⟩ => List.not_mem_nil hm⟩, hn, h, Option.isNone_iff_eq_none.mp hgone⟩

end OpenApi
