import OpenApi.Proofs.Bundle.Success

/-!
# Who is blamed for an unresolved reference

Bundling reports an unresolved reference with its text and the URL of the document that holds it. Before
the last check that is always a reference of the document, as written there, that denotes no node:
`bundle_blames` has it without conditions. The last check reads the assembled tree. It blames the root,
whatever document a reference was written in, and the text that stands there may be one that bundling
wrote.

Where links lead to what they say, the text is what was kept of some reference into the root, or stands
beside another one (`Library.Carries`). The root has it as it is reported under the conditions of
`Library.Verbatim`: what is kept of a reference is a text of the root, or resolves. The last theorem has
documents where a reference back into the root is blamed on the root, which does not have it.
-/

namespace OpenApi

/-- What is asked of documents so that every unresolved text of the assembled tree is one of the root. -/
structure Library.Verbatim (docs : Library) (url : Url) : Prop extends docs.Linkable url where
  /-- The root's components and component schemas are taken from no other document. -/
  own : docs.OwnSchemas url
  /-- What is kept of a reference into the root is a text of the root, or leads to a node of the root
  that stands below no reference to another document. -/
  into : ∀ {base tree text target root}, docs base = some tree → text ∈ tree.references →
    joinReference base text = .ok target → target.document = url → docs url = some root →
    "#" ++ target.fragment.getD "" ∈ root.references ∨
      ∃ path, root.locate? (target.fragment.getD "") = some path ∧ root.AllAbove (Own url url) path
  /-- The same is true of every text that stands beside the text of another reference. -/
  beside : ∀ {base members own text root}, docs.Holds base (.object members) →
    (Json.object members).reference? = some own → text ∈ Json.memberReferences members →
    docs url = some root →
    text ∈ root.references ∨
      ∃ path, root.locateLocal? text = some path ∧ root.AllAbove (Own url url) path

/-! ## Checking the conditions -/

/-- Whether each reference of listed documents that leads into the root leads somewhere there or is
kept as a text of the root. -/
def Library.keepsTexts (docs : Library) (entries : List (Url × Json)) (url : Url) : Bool :=
  entries.all fun (base, tree) => tree.references.all fun text =>
    (joinReference base text).toOption.all fun target =>
      target.document ≠ url || (docs url).all fun root =>
        root.references.contains ("#" ++ target.fragment.getD "") ||
          (root.locate? (target.fragment.getD "")).isSome

section

variable {docs : Library} {url : Url} {entries : List (Url × Json)}

/-- Bundleable documents whose references into the root are kept as texts of it, or lead somewhere. -/
theorem Library.Bundleable.verbatim (h : docs.Bundleable url) (hown : docs.OwnSchemas url)
    (hfinite : ∀ {base tree}, docs base = some tree → (base, tree) ∈ entries)
    (hkeeps : docs.keepsTexts entries url = true) : docs.Verbatim url where
  toLinkable := h.toLinkable
  own := hown
  into := by
    intro base tree text target root hd hm ht he hroot
    have htext := List.all_eq_true.mp (List.all_eq_true.mp hkeeps _ (hfinite hd)) text hm
    rw [ht] at htext
    simp only [Except.toOption, Option.all_some, hroot, he, ne_eq, not_true_eq_false,
      decide_false, Bool.false_or, Bool.or_eq_true] at htext
    rcases htext with htext | hl
    · exact .inl (by simpa using htext)
    · obtain ⟨path, hl⟩ := Option.isSome_iff_exists.mp hl
      exact .inr ⟨path, hl, h.clear ⟨base, tree, text, hd, hm, ht⟩ he hroot hl⟩
  beside := by
    intro base members own text root hh hr hm hroot
    obtain ⟨found, path, hfound, hl, hclear⟩ := h.beside hh hr hm
    cases hroot.symm.trans hfound
    exact .inr ⟨path, hl, hclear⟩

end

/-! ## The last check -/

section

variable {docs : Library} {url : Url} {root walked bundled : Json} {start finish : Progress}

/-- No link that was written is an unresolved text of the assembled tree. -/
theorem Assembled.carries (hb : Assembled docs url bundled root walked start finish)
    (hown : docs.OwnSchemas url) (hlinkable : docs.Linkable url) {text : String}
    (hm : text ∈ bundled.references) (hnone : bundled.resolveLocal? text = none) :
    docs.Carries url text := by
  by_cases hcarries : docs.Carries url text
  · exact hcarries
  · have hsome := hb.resolves_link hown hlinkable hm hcarries
    rw [hnone] at hsome
    cases hsome

/-- An unresolved text of the assembled tree is a text of the root. -/
theorem Assembled.mem_references (hb : Assembled docs url bundled root walked start finish)
    (hv : docs.Verbatim url) {text : String} (hm : text ∈ bundled.references)
    (hnone : bundled.resolveLocal? text = none) : text ∈ root.references := by
  have hnot : ∀ {path}, root.locateLocal? text = some path → ¬root.AllAbove (Own url url) path := by
    intro path hl hclear
    have hsome := hb.resolves_own (hb.sound (hv.proper hb.found)) hv.own hl hclear
    rw [hnone] at hsome
    cases hsome
  rcases hb.carries hv.own hv.toLinkable hm hnone with
    ⟨_, base, tree, target, hd, hwritten, ht, he, rfl⟩ | ⟨base, members, own, hh, hr, hbeside⟩
  · rcases hv.into hd hwritten ht he hb.found with hroot | ⟨path, hl, hclear⟩
    · exact hroot
    · rw [← Json.locateLocal?_hash] at hl
      exact absurd hclear (hnot hl)
  · rcases hv.beside hh hr hbeside hb.found with hroot | ⟨path, hl, hclear⟩
    · exact hroot
    · exact absurd hclear (hnot hl)

end

/-! ## Before the last check -/

section

variable {source : Source} {docs : Library} {shelf : Shelf} {url : Url} {text base : String}

/-- Unless it is the source that says so, the start blames the root for a reference that it holds and
that denotes nothing. -/
theorem dangling_of_bundleStart {s : Progress} (hd : available source shelf = docs)
    (hsource : ∀ text base, source.fetch url ≠ .error (.unresolvedReference text base))
    (h : bundleStart source url { shelf } = .error (.unresolvedReference text base) s) :
    base = url.text ∧ docs.Dangling url text := by
  rcases bundleStart_eq_error h with hfetch | ⟨fault, heq⟩ |
    ⟨root, name, schema, written, hroot, hm, hr, hj⟩
  · unfold Source.document at hfetch
    split at hfetch
    · next error hf =>
        cases hfetch
        exact absurd hf (hsource text base)
    · split at hfetch <;> simp at hfetch
  · cases heq
  · have heq := joinReference_eq_error hj
    cases heq
    rw [hd] at hroot
    have hmem : schema.references ⊆ root.references :=
      references_subset_of_mem_componentSchemas hm
    refine ⟨rfl, ⟨root, hroot, hmem (Json.mem_references_of_reference? hr)⟩, fun ht => ?_⟩
    cases hj.symm.trans ht

/-- An unresolved reference is reported by the start or the walk, for a reference of some document that
denotes nothing, or by the check of the assembled tree. -/
theorem dangling_or_assembled {fuel : Nat} {s : Progress} (hd : available source shelf = docs)
    (hproper : docs.Proper)
    (hsource : ∀ text base, source.fetch url ≠ .error (.unresolvedReference text base))
    (h : bundleAt source fuel url { shelf } = .error (.unresolvedReference text base) s) :
    (∃ holder, base = holder.text ∧ docs.Dangling holder text) ∨
      base = url.text ∧ ∃ root walked bundled start,
        bundleStart source url { shelf } = .ok root start ∧
        Assembled docs url bundled root walked start s ∧ text ∈ bundled.references ∧
        bundled.resolveLocal? text = none := by
  rw [bundleAt_eq, Walk.bind_run] at h
  split at h
  · next root start hstart =>
      rw [Walk.bind_run] at h
      split at h
      · next walked finish hwalk =>
          obtain ⟨rfl, ⟨fault, heq⟩ | ⟨bundled, hadd, found, hm, hnone, heq⟩⟩ :=
            bundleFinish_eq_error h
          · cases heq
          · cases heq
            exact .inr ⟨rfl, root, walked, bundled, start, hstart,
              ⟨walked_of_walk hd hstart hwalk, hadd⟩, hm, hnone⟩
      · next error finish hwalk =>
          cases h
          obtain ⟨hroot, hsees, _⟩ := bundleStart_run_ok hd hstart
          rcases blames_of_walk_root hsees hproper hroot hwalk with hexhausted | hdangles
          · exact absurd hexhausted (not_exhausted_unresolved text base)
          · obtain ⟨holder, written, hdangling, heq⟩ := hdangles
            cases heq
            exact .inl ⟨holder, rfl, hdangling⟩
  · next error start hstart =>
      cases h
      obtain ⟨rfl, hdangling⟩ := dangling_of_bundleStart hd hsource hstart
      exact .inl ⟨url, rfl, hdangling⟩

/-- Whatever bundling reports as unresolved is a reference of the document that it names, as written
there, which denotes no node; or it is a text of the assembled tree that does not resolve in it, and the
root is named. Where links lead to what they say, such a text comes from a reference into the root or
stands beside another one. Where the documents are verbatim, the document that is named has the
reference in either case. -/
theorem bundle_blames {fuel : Nat} {s : Progress} (hd : available source shelf = docs)
    (hproper : docs.Proper)
    (hsource : ∀ text base, source.fetch url ≠ .error (.unresolvedReference text base))
    (h : bundleAt source fuel url { shelf } = .error (.unresolvedReference text base) s) :
    ((∃ holder, base = holder.text ∧ docs.Dangling holder text) ∨
      base = url.text ∧ ∃ root walked bundled start,
        Assembled docs url bundled root walked start s ∧ text ∈ bundled.references ∧
        bundled.resolveLocal? text = none ∧
        (docs.Linkable url → docs.OwnSchemas url → docs.Carries url text)) ∧
    (docs.Verbatim url →
      ∃ holder tree, base = holder.text ∧ docs holder = some tree ∧ text ∈ tree.references) := by
  rcases dangling_or_assembled hd hproper hsource h with
    ⟨holder, heq, hdangling⟩ | ⟨heq, root, walked, bundled, start, hstart, hb, hm, hnone⟩
  · obtain ⟨tree, hfound, hm⟩ := hdangling.1
    exact ⟨.inl ⟨holder, heq, hdangling⟩, fun _ => ⟨holder, tree, heq, hfound, hm⟩⟩
  · have hcarries : docs.Linkable url → docs.OwnSchemas url → docs.Carries url text :=
      fun hlinkable hown => hb.carries hown hlinkable hm hnone
    exact ⟨.inr ⟨heq, root, walked, bundled, start, hb, hm, hnone, hcarries⟩,
      fun hv => ⟨url, root, heq, hb.found, hb.mem_references hv hm hnone⟩⟩

end

/-! ## Documents with unresolved references -/

/-- A root with an unresolved reference, which takes in a part that refers back to the root. -/
def blamed : Shelf :=
  let link text := Json.object [("$ref", .string text)]
  rootAndOther [("x", link "e#/y"), ("z", link "#/missing")] "e"
    (.object [("y", .object [("back", link "r#/x")])])

/-- The documents are verbatim, the root is blamed, and it has the reference that is reported. -/
theorem bundle_blamed :
    Library.Verbatim (available .empty blamed) rootUrl ∧
    ∃ finish, bundleAt .empty (fuelBound blamed) rootUrl { shelf := blamed }
        = .error (.unresolvedReference "#/missing" "mem:///r") finish ∧
      ∃ holder tree, "mem:///r" = holder.text ∧ available .empty blamed holder = some tree ∧
        "#/missing" ∈ tree.references := by
  have hlisted : Library.isBundleable (available .empty blamed) blamed rootUrl = true := by
    decide +kernel
  have hown : Library.hasOwnSchemas (available .empty blamed) rootUrl = true := by decide +kernel
  have hkeeps : Library.keepsTexts (available .empty blamed) blamed rootUrl = true := by
    decide +kernel
  have hfails : failsWith blamed (.unresolvedReference "#/missing" "mem:///r") = true := by
    decide +kernel
  obtain ⟨finish, hrun⟩ := exists_of_failsWith hfails
  have hplain := bundleable_of_listed mem_of_available_empty hlisted
  have hverbatim := hplain.verbatim (ownSchemas_of_hasOwnSchemas hown) mem_of_available_empty hkeeps
  have hsource : ∀ text base,
      Source.empty.fetch rootUrl ≠ .error (.unresolvedReference text base) := by
    intro text base heq
    cases heq
  exact ⟨hverbatim, finish, hrun, (bundle_blames rfl hplain.proper hsource hrun).2 hverbatim⟩

/-- A root that takes a part of another document in, which refers to a missing part of the root. -/
def misblamed : Shelf :=
  rootAndOther [("x", .object [("$ref", .string "e#/y")])] "e"
    (.object [("y", .object [("z", .object [("$ref", .string "r#/missing")])])])

/-- The root is blamed for a reference that no document has. The unresolved one is that of the other
document. -/
theorem bundle_misblamed :
    (∃ finish, bundleAt .empty (fuelBound misblamed) rootUrl { shelf := misblamed }
      = .error (.unresolvedReference "#/missing" "mem:///r") finish) ∧
    (∀ {holder tree}, available .empty misblamed holder = some tree →
      "#/missing" ∉ tree.references) ∧
    ∃ holder tree, holder.text = "mem:///e" ∧ available .empty misblamed holder = some tree ∧
      tree.references = ["r#/missing"] := by
  have hnone : ∀ entry ∈ misblamed, "#/missing" ∉ entry.2.references := by decide
  refine ⟨exists_of_failsWith (by decide +kernel), fun hd => hnone _ (mem_of_available_empty hd),
    ⟨"mem", some {}, .segments ["e"], none, none⟩, _, by decide +kernel, rfl, by decide⟩

end OpenApi
