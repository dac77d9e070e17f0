import OpenApi.Proofs.Bundle.Call
import OpenApi.Proofs.Bundle.Regular

/-!
# References to one target lead to one node

A target that was taken in has a spot by the tables: the home of its name, or the place where it was
taken in. A walk never moves it: a target with a spot becomes a link to it, except where the reference
itself stands at the spot. So all references to a target lead to one node of the bundled document by
at most one link, and copies of it stand at one path.

Two targets are the same if their URLs are, the written fragment included. Fragments that are spelled
differently make different targets even where they lead to the same node, and then the node is copied
once for each of them: `copies_spelledShelf`.
-/

namespace OpenApi

/-! ## Spots -/

/-- Where a target stands by the tables: at the home of its name, or else at its place. -/
def Progress.spot? (s : Progress) (target : Url) : Option Pointer :=
  match s.names.lookup target with
  | some name => some (Pointer.home name)
  | none => s.places.lookup target

section

variable {s s' : Progress} {target : Url}

theorem Progress.spot?_of_named {name : String} (h : s.names.lookup target = some name) :
    s.spot? target = some (Pointer.home name) := by
  rw [spot?, h]

theorem Progress.spot?_of_unnamed (h : s.names.lookup target = none) :
    s.spot? target = s.places.lookup target := by
  rw [spot?, h]

/-- A place that is noted for a target that has a name, or no place yet, moves no spot. -/
theorem Progress.spot?_atPlace {pointer spot : Pointer} {other : Url}
    (h : (∃ name, s.names.lookup target = some name) ∨ s.places.lookup target = none)
    (hspot : s.spot? other = some spot) : (s.atPlace target pointer).spot? other = some spot := by
  cases hn : s.names.lookup other with
  | some name =>
      have hn' : (s.atPlace target pointer).names.lookup other = some name := hn
      rw [spot?_of_named hn']
      rwa [spot?_of_named hn] at hspot
  | none =>
      have hn' : (s.atPlace target pointer).names.lookup other = none := hn
      rw [spot?_of_unnamed hn] at hspot
      rw [spot?_of_unnamed hn', atPlace, List.lookup_cons]
      split
      · next heq =>
          -- this target has neither a name nor a place
          rw [beq_iff_eq] at heq
          subst heq
          rcases h with ⟨name, hname⟩ | hplace
          · cases hname.symm.trans hn
          · cases hplace.symm.trans hspot
      · exact hspot

/-- A name that is given to a target without a spot moves no spot. -/
theorem Progress.spot?_withName {name : String} {spot : Pointer} {other : Url}
    (h : s.spot? target = none) (hspot : s.spot? other = some spot) :
    (s.withName target name).spot? other = some spot := by
  have hne : other ≠ target := by
    rintro rfl
    cases h.symm.trans hspot
  rw [spot?, lookup_withName, if_neg hne]
  exact hspot

variable {docs : Library} {rootUrl base : Url} {path : Path} {position : Position}

/-- A walk moves no spot. -/
theorem Runs.spot? {part part' : Part} {spot : Pointer}
    (h : Runs docs rootUrl base path position part s part' s') (hspot : s.spot? target = some spot) :
    s'.spot? target = some spot := by
  refine h.preserves (P := fun s => s.spot? target = some spot) ?_ ?_ ?_ ?_ hspot
  · intro s other pointer position hv hspot
    refine Progress.spot?_atPlace ?_ hspot
    rcases (verdict_eq_inline hv).2 with ⟨name, hname, _⟩ | ⟨_, hplace, _⟩
    · exact .inl ⟨name, hname⟩
    · exact .inr hplace
  · intro s other pointer position wanted name hv hspot
    obtain ⟨_, hname, hplace, _⟩ := verdict_eq_hoist hv
    refine Progress.spot?_withName ?_ hspot
    rw [Progress.spot?_of_unnamed hname, hplace]
  · exact fun hspot => hspot
  · exact fun hspot => hspot

/-- Where a target is taken in on the spot, that is its spot. -/
theorem spot?_of_inline {pointer : Pointer}
    (hv : verdict rootUrl target pointer position s = .inline) :
    (s.atPlace target pointer).spot? target = some pointer := by
  rcases (verdict_eq_inline hv).2 with ⟨name, hname, hhome, _⟩ | ⟨hname, _, _⟩
  · have hname' : (s.atPlace target pointer).names.lookup target = some name := hname
    rw [Progress.spot?_of_named hname', hhome]
  · have hname' : (s.atPlace target pointer).names.lookup target = none := hname
    rw [Progress.spot?_of_unnamed hname']
    exact List.lookup_cons_self

/-- Where a target is hoisted, its spot is the home of its name. -/
theorem spot?_of_hoist (name : String) :
    (s.withName target name).spot? target = some (Pointer.home name) :=
  Progress.spot?_of_named List.lookup_cons_self

/-- After its walk a reference to another document stands at the spot of its target, or is a link to
it. -/
theorem Runs.exists_spot {value value' : Json} {text : String}
    (h : Runs docs rootUrl base path position (.value value) s (.value value') s')
    (hr : value.reference? = some text) (ht : joinReference base text = .ok target)
    (he : target.document ≠ rootUrl) :
    ∃ spot, s'.spot? target = some spot ∧
      (spot = .ofPath path ∨ value' = value.withReference ("#" ++ spot.text)) := by
  cases h.replaced hr ht with
  | link hv =>
      rcases verdict_eq_link hv with ⟨hroot, _⟩ | ⟨_, name, hn, _, rfl⟩ | ⟨_, hn, place, hp, rfl⟩
      · exact absurd hroot he
      · exact ⟨_, Progress.spot?_of_named hn, .inr rfl⟩
      · exact ⟨_, (Progress.spot?_of_unnamed hn).trans hp, .inr rfl⟩
  | inlined hv _ hrun => exact ⟨_, hrun.spot? (spot?_of_inline hv), .inl rfl⟩
  | @hoisted _ name _ _ _ _ _ _ _ hrun =>
      exact ⟨_, hrun.spot? (spot?_of_hoist name), .inr rfl⟩

end

/-! ## The spots of all calls -/

section

variable {docs : Library} {rootUrl target : Url} {whole call made : Call} {spot : Pointer}

/-- A spot that a target has after a call it has after the whole. -/
theorem Meets.spot? (h : Meets docs rootUrl whole call) (hspot : call.after.spot? target = some spot) :
    whole.after.spot? target = some spot := by
  induction h with
  | refl => exact hspot
  | tail _ hmakes ih =>
      apply ih
      cases hmakes with
      | item _ hr | member _ hr => exact hr.spot? hspot
      | array | object | items | members | inlined | hoisted => exact hspot

/-- What a reference takes in is a value, which stands at the spot of its target. -/
theorem Makes.of_refers (h : Makes docs rootUrl call made) (hr : call.Refers target) :
    call.after.spot? target = some (.ofPath made.path) ∧ ∃ value, made.result = .value value := by
  cases h.takesIn hr with
  | inlined hv _ hrun => exact ⟨hrun.spot? (spot?_of_inline hv), _, rfl⟩
  | @hoisted _ _ _ _ _ name _ _ _ _ _ _ _ _ hrun =>
      exact ⟨hrun.spot? (spot?_of_hoist name), _, rfl⟩

end

/-! ## Calls of a whole bundling -/

/-- The link to a path leads there: no name on it holds a percent-escape, and it is not the path to a
member of the root with the empty name. -/
def Path.Linkable (path : Path) : Prop := (∀ step ∈ path, step.ReadBack) ∧ path ≠ [.member ""]

/-- The walk of a root. -/
def Call.ofRoot (url : Url) (root walked : Json) (start finish : Progress) : Call :=
  ⟨url, [], .other, .value root, start, .value walked, finish⟩

section

variable {docs : Library} {url target : Url} {document : Document} {root walked : Json}
  {start finish : Progress} {call : Call}

theorem Walked.sane_ofRoot (hb : Walked docs url root walked start finish) (hs : start.Sound)
    (hd : docs.Proper) : (Call.ofRoot url root walked start finish).Sane docs url :=
  ⟨hb.runs, hs, hd hb.found⟩

/-- What a call made of a value stands in the bundled document, and a reference is one there. -/
theorem Bundled.at?_of_meets (hb : Bundled docs url document root walked start finish)
    (hs : start.Sound) (hd : docs.Proper) (hown : docs.OwnSchemas url)
    (h : Meets docs url (.ofRoot url root walked start finish) call) {value : Json}
    (hv : call.result = .value value) :
    ∃ value', document.root.at? call.path = some value' ∧
      ∀ {text}, value.reference? = some text → value'.reference? = some text := by
  obtain ⟨_, hstands⟩ := h.within hd (hb.sane_ofRoot hs hd)
  have hself : Stands call.after.hoisted call.result call.path call.path value :=
    .inl ⟨[], (List.append_nil _).symm, by rw [hv]; rfl⟩
  obtain ⟨value', ha, hwide⟩ := hb.at?_of_stands hs hown (hstands hself)
  refine ⟨value', ha, fun hr => ?_⟩
  rcases hwide with rfl | hw
  · exact hr
  · exact hw.reference?_eq_some hr

/-- From a reference to another document the bundled document leads by at most one link to the node
that the spot of its target designates, which must be spelled safely if the reference stands there. -/
theorem Bundled.follow?_of_refers (hb : Bundled docs url document root walked start finish)
    (hs : start.Sound) (hd : docs.Proper) (hown : docs.OwnSchemas url)
    (h : Meets docs url (.ofRoot url root walked start finish) call) (hr : call.Refers target)
    (he : target.document ≠ url)
    (hp : finish.spot? target = some (.ofPath call.path) → call.path.Linkable) :
    ∃ spot node count, finish.spot? target = some spot ∧
      document.root.locateLocal? ("#" ++ spot.text) = some node ∧ count ≤ 1 ∧
      (bundleGraph document.root).follow? count call.path = some node := by
  obtain ⟨value, text, hpart, hr, ht⟩ := hr
  obtain ⟨⟨hrun, _, _⟩, _⟩ := h.within hd (hb.sane_ofRoot hs hd)
  rw [Call.IsRun, hpart] at hrun
  obtain ⟨value', hresult⟩ := hrun.exists_value
  rw [hresult] at hrun
  obtain ⟨spot, hspot, hends⟩ := hrun.exists_spot hr ht he
  obtain ⟨found, ha, hkept⟩ := hb.at?_of_meets hs hd hown h hresult
  refine ⟨spot, ?_⟩
  rcases hends with rfl | rfl
  · obtain ⟨hread, hne⟩ := hp (h.spot? hspot)
    exact ⟨call.path, 0, h.spot? hspot, Json.locateLocal?_link hread hne ha, Nat.zero_le _, rfl⟩
  · -- every reference of the bundled document resolves
    have hlink := hkept (reference?_withReference _ hr)
    have hclosed := hb.closed _ (Json.references_subset_of_at? ha
      (Json.mem_references_of_reference? hlink))
    obtain ⟨target, hresolve⟩ := Option.isSome_iff_exists.mp hclosed
    rw [Json.resolveLocal?_eq_locateLocal?, Option.bind_eq_some_iff] at hresolve
    obtain ⟨node, hlocate, _⟩ := hresolve
    refine ⟨node, 1, h.spot? hspot, hlocate, Nat.le_refl _, ?_⟩
    rw [Graph.follow?_one, bundleGraph_next? ha hlink, hlocate]

/-- What a reference takes in stands in the bundled document at the spot of its target. -/
theorem Bundled.exists_at?_of_makes (hb : Bundled docs url document root walked start finish)
    (hs : start.Sound) (hd : docs.Proper) (hown : docs.OwnSchemas url)
    (h : Meets docs url (.ofRoot url root walked start finish) call) (hr : call.Refers target)
    {made : Call} (hmakes : Makes docs url call made) :
    finish.spot? target = some (.ofPath made.path) ∧
      ∃ value, document.root.at? made.path = some value := by
  obtain ⟨hspot, value, hresult⟩ := hmakes.of_refers hr
  obtain ⟨found, ha, _⟩ := hb.at?_of_meets hs hd hown (h.tail hmakes) hresult
  exact ⟨h.spot? hspot, found, ha⟩

end

/-- References to one target of another document lead to one node of the bundled document, by at most
one link each, and all copies of the target that the walk makes stand at one path. Where one of the
references stands at the spot of the target, the link to there must be spelled safely. -/
theorem bundle_shares {source : Source} {fuel : Nat} {url : Url} {shelf : Shelf}
    {document : Document} {finish : Progress}
    (h : bundleAt source fuel url { shelf } = .ok document finish)
    (hd : Library.Proper (available source shelf))
    (hown : Library.OwnSchemas (available source shelf) url) :
    ∃ root start walked, bundleStart source url { shelf } = .ok root start ∧
      root.walk (replaceReference source url fuel url) .root .other start = .ok walked finish ∧
      ∀ {call₁ call₂ target},
        Meets (available source shelf) url (.ofRoot url root walked start finish) call₁ →
        Meets (available source shelf) url (.ofRoot url root walked start finish) call₂ →
        call₁.Refers target → call₂.Refers target → target.document ≠ url →
        ((finish.spot? target = some (.ofPath call₁.path) → call₁.path.Linkable) →
          (finish.spot? target = some (.ofPath call₂.path) → call₂.path.Linkable) →
          ∃ node i j, i ≤ 1 ∧ j ≤ 1 ∧
            (bundleGraph document.root).follow? i call₁.path = some node ∧
            (bundleGraph document.root).follow? j call₂.path = some node) ∧
        ∀ {copy₁ copy₂}, Makes (available source shelf) url call₁ copy₁ →
          Makes (available source shelf) url call₂ copy₂ → copy₁.path = copy₂.path := by
  obtain ⟨root, walked, start, hstart, hwalk, hb⟩ := bundle_walk rfl h
  have hs := sound_of_bundleStart (hd hb.found) hstart
  refine ⟨root, start, walked, hstart, hwalk, fun h₁ h₂ hr₁ hr₂ he => ⟨fun hp₁ hp₂ => ?_, ?_⟩⟩
  · obtain ⟨spot, node, i, hspot, hnode, hi, hfollow⟩ :=
      hb.follow?_of_refers hs hd hown h₁ hr₁ he hp₁
    obtain ⟨spot', node', j, hspot', hnode', hj, hfollow'⟩ :=
      hb.follow?_of_refers hs hd hown h₂ hr₂ he hp₂
    cases hspot.symm.trans hspot'
    cases hnode.symm.trans hnode'
    exact ⟨node, i, j, hi, hj, hfollow, hfollow'⟩
  · intro copy₁ copy₂ hmakes₁ hmakes₂
    obtain ⟨hspot₁, _, ha₁⟩ := hb.exists_at?_of_makes hs hd hown h₁ hr₁ hmakes₁
    obtain ⟨hspot₂, _, ha₂⟩ := hb.exists_at?_of_makes hs hd hown h₂ hr₂ hmakes₂
    exact Json.path_eq_of_ofPath_eq ha₁ ha₂ (Option.some.inj (hspot₁.symm.trans hspot₂))

/-- Two members of a root refer to one member of another document. -/
def sharedRoot : Json :=
  .object [("openapi", .string "3.0.0"), ("x", .object [("$ref", .string "e#/y")]),
    ("z", .object [("$ref", .string "e#/y")])]

/-- The root and the other document. -/
def sharedShelf : Shelf :=
  [(rootUrl, sharedRoot),
   (⟨"mem", some {}, .segments ["e"], none, none⟩,
    .object [("y", .object [("type", .string "integer")])])]

/-- The two members lead to one node. -/
theorem shares_sharedShelf :
    ∃ document finish node i j,
      bundleAt .empty 10 rootUrl { shelf := sharedShelf } = .ok document finish ∧
      i ≤ 1 ∧ j ≤ 1 ∧ (bundleGraph document.root).follow? i [.member "x"] = some node ∧
      (bundleGraph document.root).follow? j [.member "z"] = some node := by
  have hrun : bundlesTo .empty 10 rootUrl sharedShelf (fun _ _ => true) = true := by
    decide +kernel
  have hproper : ∀ entry ∈ sharedShelf, entry.2.proper = true := by decide
  obtain ⟨document, finish, h, _⟩ := exists_of_bundlesTo hrun
  obtain ⟨root, start, walked, hstart, hwalk, hshares⟩ :=
    bundle_shares h (fun hd => hproper _ (mem_of_available_empty hd))
      (ownSchemas_of_hasOwnSchemas (by decide +kernel))
  obtain ⟨hfound, hsees, _⟩ := bundleStart_run_ok rfl hstart
  cases hfound.symm.trans (show available .empty sharedShelf rootUrl = some sharedRoot from rfl)
  -- both members are met below the root, which is no reference
  have hmeets : ∀ {name node}, sharedRoot.at? [.member name] = some node →
      ∃ call, Meets (available .empty sharedShelf) rootUrl
          (.ofRoot rootUrl sharedRoot walked start finish) call ∧
        call.IsAt rootUrl [.member name] node := by
    intro name node ha
    refine (runs_of_walk hsees hwalk).meets_at? (fun above step below holder hp hh => ?_) ha
    cases above with
    | nil =>
        cases hh
        rfl
    | cons first rest => simp at hp
  have hlinkable : ∀ {name : String}, name ≠ "" → Text.hasEscape name.toList = false →
      Path.Linkable [.member name] := by
    intro name hne hread
    refine ⟨fun step hm => ?_, fun heq => ?_⟩
    · rw [List.mem_singleton.mp hm]
      exact hread
    · cases heq
      exact hne rfl
  obtain ⟨call₁, hmeets₁, hbase₁, hpath₁, hpart₁⟩ := @hmeets "x" _ rfl
  obtain ⟨call₂, hmeets₂, hbase₂, hpath₂, hpart₂⟩ := @hmeets "z" _ rfl
  obtain ⟨target, ht, he⟩ : ∃ target, joinReference rootUrl "e#/y" = .ok target ∧
      target.document ≠ rootUrl := ⟨_, rfl, by decide⟩
  obtain ⟨node, i, j, hi, hj, hfollow₁, hfollow₂⟩ :=
    (hshares hmeets₁ hmeets₂ ⟨_, _, hpart₁, rfl, hbase₁ ▸ ht⟩ ⟨_, _, hpart₂, rfl, hbase₂ ▸ ht⟩ he).1
      (fun _ => hpath₁ ▸ hlinkable (by decide) (by decide))
      (fun _ => hpath₂ ▸ hlinkable (by decide) (by decide))
  rw [hpath₁] at hfollow₁
  rw [hpath₂] at hfollow₂
  exact ⟨document, finish, node, i, j, h, hi, hj, hfollow₁, hfollow₂⟩

/-- References to one document and to one of its members, each with its fragment spelled in two ways:
absent and empty, plain and with a percent-escape. -/
def spelledShelf : Shelf :=
  [(rootUrl, .object [("openapi", .string "3.0.0"),
      ("v", .object [("$ref", .string "e")]), ("w", .object [("$ref", .string "e#")]),
      ("x", .object [("$ref", .string "e#/y")]), ("z", .object [("$ref", .string "e#/%79")])]),
   (⟨"mem", some {}, .segments ["e"], none, none⟩,
    .object [("y", .object [("type", .string "integer")])])]

/-- The node that a reference beside a URL designates. -/
def Library.designated? (docs : Library) (base : Url) (text : String) : Option (Url × Path) :=
  (joinReference base text).toOption.bind docs.site?

/-- References whose fragments are spelled differently lead to two nodes, although their target is
one: each is a copy of it. -/
theorem copies_spelledShelf :
    (∀ text ∈ ["e", "e#"], Library.designated? (available .empty spelledShelf) rootUrl text
      = some (⟨"mem", some {}, .segments ["e"], none, none⟩, [])) ∧
    (∀ text ∈ ["e#/y", "e#/%79"], Library.designated? (available .empty spelledShelf) rootUrl text
      = some (⟨"mem", some {}, .segments ["e"], none, none⟩, [.member "y"])) ∧
    ∃ document finish, bundleAt .empty 10 rootUrl { shelf := spelledShelf } = .ok document finish ∧
      ∀ pair ∈ [("v", "w"), ("x", "z")], ∀ i j node,
        (bundleGraph document.root).follow? i [.member pair.1] = some node →
          (bundleGraph document.root).follow? j [.member pair.2] ≠ some node := by
  refine ⟨by decide +kernel, by decide +kernel, ?_⟩
  have hrun : bundlesTo .empty 10 rootUrl spelledShelf (fun document _ =>
      ["v", "w", "x", "z"].all fun name =>
        (document.root.at? [.member name]).any (·.reference?.isNone)) = true := by decide +kernel
  obtain ⟨document, finish, h, hcheck⟩ := exists_of_bundlesTo hrun
  -- none of the four is a reference any more
  have hrests : ∀ name ∈ ["v", "w", "x", "z"], ∀ {i node},
      (bundleGraph document.root).follow? i [.member name] = some node → node = [.member name] := by
    intro name hm i node hf
    have hname := List.all_eq_true.mp hcheck name hm
    rw [Option.any_eq_true] at hname
    obtain ⟨value, ha, hr⟩ := hname
    exact Graph.eq_of_follow? ha (Option.isNone_iff_eq_none.mp hr) hf
  refine ⟨document, finish, h, fun pair hm i j node hi hj => ?_⟩
  simp only [List.mem_cons, List.not_mem_nil, or_false] at hm
  rcases hm with rfl | rfl
  · exact absurd ((hrests "v" (by decide) hi).symm.trans (hrests "w" (by decide) hj)) (by decide)
  · exact absurd ((hrests "x" (by decide) hi).symm.trans (hrests "z" (by decide) hj)) (by decide)

end OpenApi
