import OpenApi.Proofs.Bundle.Sharing

/-!
# What stands beside a reference

A Reference Object may hold more than its `$ref`. A reference that becomes a link, to what was
hoisted or to where its target was taken in, gets another text and keeps the rest; a reference whose
target is taken in on the spot is replaced as a whole. `bundle_keeps_siblings` states both for every
reference at a schema position of the root: a member beside `$ref` stands in the bundled document at
its path exactly if the verdict on the reference was a link, or what was taken in has the member
itself. Flags such as `readOnly` are members of this kind.

Adding what was hoisted does not interfere: where the root has a value, nothing is hoisted.
-/

namespace OpenApi

/-! ## One reference -/

section

variable {docs : Library} {rootUrl target : Url} {call : Call} {value : Json} {text : String}

/-- A reference whose target is not taken in on the spot gets another text. -/
theorem Call.IsRun.exists_withReference (h : call.IsRun docs rootUrl)
    (hp : call.part = .value value) (hr : value.reference? = some text)
    (ht : joinReference call.base text = .ok target)
    (hv : verdict rootUrl target (.ofPath call.path) call.position call.before ≠ .inline) :
    ∃ new, call.result = .value (value.withReference new) := by
  obtain ⟨base, path, position, part, before, result, after⟩ := call
  subst hp
  cases Runs.replaced h hr ht with
  | link => exact ⟨_, rfl⟩
  | inlined hv' => exact absurd hv' hv
  | hoisted => exact ⟨_, rfl⟩

/-- In the place of a reference whose target is taken in on the spot stands what its walk left. -/
theorem Call.IsRun.exists_copy (h : call.IsRun docs rootUrl)
    (hp : call.part = .value value) (hr : value.reference? = some text)
    (ht : joinReference call.base text = .ok target)
    (hv : verdict rootUrl target (.ofPath call.path) call.position call.before = .inline) :
    ∃ copy node, Makes docs rootUrl call copy ∧ docs.node? target = some node ∧
      copy.IsAt target.document call.path node ∧ copy.result = call.result := by
  obtain ⟨base, path, position, part, before, result, after⟩ := call
  subst hp
  cases Runs.replaced h hr ht with
  | link hv' => cases hv.symm.trans hv'
  | inlined _ hn h => exact ⟨_, _, .inlined hr ht hv hn h, hn, ⟨rfl, rfl, rfl⟩, rfl⟩
  | hoisted hv' => cases hv.symm.trans hv'

/-- What a reference takes in on the spot stands in its place. -/
theorem Makes.result_eq {copy : Call} (h : Makes docs rootUrl call copy)
    (hp : call.part = .value value) (hr : value.reference? = some text)
    (ht : joinReference call.base text = .ok target)
    (hv : verdict rootUrl target (.ofPath call.path) call.position call.before = .inline) :
    copy.result = call.result := by
  cases h.takesIn ⟨_, _, hp, hr, ht⟩ with
  | inlined => rfl
  | hoisted hv' => cases hv.symm.trans hv'

end

/-- A new text leaves the other members of a Reference Object. -/
theorem member?_withReference {value : Json} {name : String} (new : String)
    (hname : name ≠ "$ref") : (value.withReference new).member? name = value.member? name := by
  cases value with
  | object members =>
      show (Members.set "$ref" (.string new) members).lookup name = members.lookup name
      rw [Members.lookup_set, if_neg hname]
  | _ => rfl

/-! ## The references of the root -/

/-- The objects that may get more members are no schemas. -/
theorem along_ne_schema_of_mem_spare {path : Path} (h : path ∈ spare) :
    Position.along .other [] path ≠ .schema := by
  simp only [spare, List.mem_cons, List.not_mem_nil, or_false] at h
  rcases h with rfl | rfl | rfl <;> decide

section

variable {docs : Library} {url : Url} {document : Document} {root walked : Json}
  {start finish : Progress}

/-- What the walk left of a value of the root that it reached stands in the walked root at the same
path. -/
theorem Walked.at?_of_reached (hb : Walked docs url root walked start finish)
    (hs : start.Sound) (hd : docs.Proper) {path : Path} {value : Json}
    (ha : root.at? path = some value) (hr : root.AllAbove (·.reference? = none) path) :
    ∃ call, Meets docs url (.ofRoot url root walked start finish) call ∧
      call.IsAt url path value ∧ call.position = Position.along .other [] path ∧
      call.IsRun docs url ∧
      ∃ value', call.result = .value value' ∧ walked.at? path = some value' := by
  obtain ⟨call, hmeets, ⟨hbase, hpath, hpart⟩, hcall⟩ := hb.runs.meets_along hr ha
  obtain ⟨⟨hrun, _, _⟩, hstands⟩ := hmeets.within hd (hb.sane_ofRoot hs hd)
  have hvalue := hrun
  rw [Call.IsRun, hpart] at hvalue
  obtain ⟨value', hresult⟩ := hvalue.exists_value
  refine ⟨call, hmeets, ⟨hbase, hpath, hpart⟩, hcall, hrun, value', hresult, ?_⟩
  have hself : Stands call.after.hoisted call.result call.path path value' :=
    .inl ⟨[], by rw [hpath, List.append_nil]; rfl, by rw [hresult]; rfl⟩
  rcases hstands hself with ⟨rest, rfl, hat⟩ | ⟨name, rest, schema, heq, hl, _⟩
  · exact hat
  · -- the root has a value there, so nothing that was hoisted stands there or above
    have hroot : (root.at? (homePath name ++ rest)).isSome = true := by
      rw [← heq, ha]
      rfl
    have hfree : finish.hoisted.lookup name = none := hb.lookup_hoisted_of_root hs hroot
    cases hl.symm.trans hfree

/-- What the walk left of a value of the root, at a schema position that it reached, stands in the
bundled document at the same path. -/
theorem Bundled.at?_of_reached (hb : Bundled docs url document root walked start finish)
    (hs : start.Sound) (hd : docs.Proper) {path : Path} {value : Json}
    (ha : root.at? path = some value) (hr : root.AllAbove (·.reference? = none) path)
    (hposition : Position.along .other [] path = .schema) :
    ∃ call, Meets docs url (.ofRoot url root walked start finish) call ∧
      call.IsAt url path value ∧ call.position = .schema ∧ call.IsRun docs url ∧
      ∃ value', call.result = .value value' ∧ document.root.at? path = some value' := by
  obtain ⟨call, hmeets, hat, hcall, hrun, value', hresult, hwalked⟩ :=
    hb.toWalked.at?_of_reached hs hd ha hr
  refine ⟨call, hmeets, hat, hcall.trans hposition, hrun, value', hresult, ?_⟩
  rw [at?_assembled_of_apart hb.nodup_hoisted hb.assembled
    (fun hm => along_ne_schema_of_mem_spare hm hposition)]
  · exact hwalked
  · rintro name below rfl
    exact hb.lookup_hoisted_of_root hs (by rw [ha]; rfl)

end

/-- Take a Reference Object at a schema position of the root that stands below no other one. A member
beside its `$ref` stands at its path in the bundled document if and only if the target was not taken
in on the spot, or what came of the target there has the member itself. -/
theorem bundle_keeps_siblings {source : Source} {fuel : Nat} {url : Url} {shelf : Shelf}
    {document : Document} {finish : Progress}
    (h : bundleAt source fuel url { shelf } = .ok document finish)
    (hd : Library.Proper (available source shelf)) :
    ∃ root start walked, bundleStart source url { shelf } = .ok root start ∧
      root.walk (replaceReference source url fuel url) .root .other start = .ok walked finish ∧
      ∀ {path value text target}, root.at? path = some value →
        root.AllAbove (·.reference? = none) path → Position.along .other [] path = .schema →
        value.reference? = some text → joinReference url text = .ok target →
        ∃ call, Meets (available source shelf) url (.ofRoot url root walked start finish) call ∧
          call.IsAt url path value ∧
          ∀ name ≠ "$ref", ∀ sibling, value.member? name = some sibling →
            (document.root.at? (path ++ [.member name]) = some sibling ↔
              verdict url target (.ofPath path) .schema call.before ≠ .inline ∨
                ∃ copy left, Makes (available source shelf) url call copy ∧
                  copy.result = .value left ∧ left.member? name = some sibling) := by
  obtain ⟨root, walked, start, hstart, hwalk, hb⟩ := bundle_walk rfl h
  have hs := sound_of_bundleStart (hd hb.found) hstart
  refine ⟨root, start, walked, hstart, hwalk, fun {path value text target} ha habove hp hr ht => ?_⟩
  obtain ⟨call, hmeets, ⟨hbase, hpath, hpart⟩, hposition, hrun, value', hresult, hat⟩ :=
    hb.at?_of_reached hs hd ha habove hp
  refine ⟨call, hmeets, ⟨hbase, hpath, hpart⟩, fun name hname sibling hsibling => ?_⟩
  have ht' : joinReference call.base text = .ok target := hbase ▸ ht
  have hmember : document.root.at? (path ++ [.member name]) = value'.member? name := by
    rw [Json.at?_concat, hat, Option.bind_some, Json.member?_eq_step?]
  rw [hmember, ← hposition, ← hpath]
  by_cases hv : verdict url target (.ofPath call.path) call.position call.before = .inline
  · -- the reference is replaced as a whole
    constructor
    · intro hkept
      obtain ⟨copy, node, hmakes, _, _, hcopy⟩ := hrun.exists_copy hpart hr ht' hv
      exact .inr ⟨copy, value', hmakes, hcopy.trans hresult, hkept⟩
    · rintro (hlink | ⟨copy, left, hmakes, hcopy, hleft⟩)
      · exact absurd hv hlink
      · have heq := (hmakes.result_eq hpart hr ht' hv).symm.trans hcopy
        cases hresult.symm.trans heq
        exact hleft
  · obtain ⟨new, hnew⟩ := hrun.exists_withReference hpart hr ht' hv
    cases hresult.symm.trans hnew
    rw [member?_withReference new hname]
    exact ⟨fun _ => .inl hv, fun _ => hsibling⟩

/-- The path to a property of the component schema `A`. -/
def propertyPath (name : String) : Path :=
  homePath "A" ++ [.member "properties", .member name]

/-- Two properties are read-only references to one schema of another document, a third one is a
reference to a component schema that admits null. -/
def flaggedRoot : Json :=
  .object [("openapi", .string "3.0.0"), ("components", .object [("schemas", .object [
    ("A", .object [("type", .string "object"), ("properties", .object [
      ("p", .object [("$ref", .string "e#/S"), ("readOnly", .bool true)]),
      ("q", .object [("$ref", .string "e#/S"), ("readOnly", .bool true)]),
      ("r", .object [("$ref", .string "#/components/schemas/B"), ("nullable", .bool true)])])]),
    ("B", .object [("$ref", .string "e#/T"), ("writeOnly", .bool true)])])])]

/-- The root and the other document. -/
def flaggedShelf : Shelf :=
  [(rootUrl, flaggedRoot),
   (⟨"mem", some {}, .segments ["e"], none, none⟩,
    .object [("S", .object [("type", .string "string")]),
      ("T", .object [("type", .string "string")])])]

/-- Bundling the root loses the flags of the first property and of the component that is a reference,
and keeps that of the second property. -/
theorem bundlesTo_flaggedShelf : bundlesTo .empty 10 rootUrl flaggedShelf (fun document _ =>
    (document.root.at? (propertyPath "p" ++ [.member "readOnly"])).isNone &&
      (document.root.at? (homePath "B" ++ [.member "writeOnly"])).isNone &&
      (document.root.at? (propertyPath "q" ++ [.member "readOnly"])).any fun value =>
        value.asBool? = some true) = true := by
  decide +kernel

/-- Of the three properties the first has lost its flag, since its target was taken in there. The third
keeps its own: the reference is a link. -/
theorem keeps_flaggedShelf :
    ∃ document finish, bundleAt .empty 10 rootUrl { shelf := flaggedShelf } = .ok document finish ∧
      document.root.at? (propertyPath "r" ++ [.member "nullable"]) = some (.bool true) ∧
      document.root.at? (propertyPath "p" ++ [.member "readOnly"]) = none ∧
      ∃ (call : Call) (target : Url), call.IsAt rootUrl (propertyPath "p")
          (.object [("$ref", .string "e#/S"), ("readOnly", .bool true)]) ∧
        joinReference rootUrl "e#/S" = .ok target ∧
        verdict rootUrl target (.ofPath (propertyPath "p")) .schema call.before = .inline := by
  have hproper : ∀ entry ∈ flaggedShelf, entry.2.proper = true := by decide
  obtain ⟨document, finish, h, hcheck⟩ := exists_of_bundlesTo bundlesTo_flaggedShelf
  rw [Bool.and_eq_true, Bool.and_eq_true, Option.isNone_iff_eq_none] at hcheck
  obtain ⟨⟨hlost, _⟩, _⟩ := hcheck
  obtain ⟨root, start, walked, hstart, hwalk, hsiblings⟩ :=
    bundle_keeps_siblings h fun hd => hproper _ (mem_of_available_empty hd)
  obtain ⟨hfound, _⟩ := bundleStart_run_ok rfl hstart
  cases hfound.symm.trans (show available .empty flaggedShelf rootUrl = some flaggedRoot from rfl)
  obtain ⟨inside, hinside, hown⟩ : ∃ target,
      joinReference rootUrl "#/components/schemas/B" = .ok target ∧ target.document = rootUrl :=
    ⟨_, rfl, by decide⟩
  obtain ⟨outside, houtside⟩ : ∃ target, joinReference rootUrl "e#/S" = .ok target := ⟨_, rfl⟩
  obtain ⟨_, _, _, hr⟩ := @hsiblings (propertyPath "r") _ _ _ rfl (by decide) (by decide) rfl hinside
  obtain ⟨call, _, hat, hp⟩ :=
    @hsiblings (propertyPath "p") _ _ _ rfl (by decide) (by decide) rfl houtside
  refine ⟨document, finish, h, (hr "nullable" (by decide) _ rfl).mpr (.inl ?_), hlost, call, outside,
    hat, houtside, ?_⟩
  · rw [verdict, if_pos hown]
    simp
  · refine Decidable.byContradiction fun hne => ?_
    have hkept := (hp "readOnly" (by decide) _ rfl).mpr (.inl hne)
    cases hlost.symm.trans hkept

/-- A property and a component schema have lost the flag beside the reference that they are; a second
property that refers to the same schema has kept it. -/
theorem lost_flaggedShelf :
    (∀ path ∈ [propertyPath "p", homePath "B"], Position.along .other [] path = .schema ∧
      flaggedRoot.AllAbove (·.reference? = none) path) ∧
    flaggedRoot.at? (propertyPath "p" ++ [.member "readOnly"]) = some (.bool true) ∧
    flaggedRoot.at? (homePath "B" ++ [.member "writeOnly"]) = some (.bool true) ∧
    ∃ document finish, bundleAt .empty 10 rootUrl { shelf := flaggedShelf } = .ok document finish ∧
      document.root.at? (propertyPath "p" ++ [.member "readOnly"]) = none ∧
      document.root.at? (homePath "B" ++ [.member "writeOnly"]) = none ∧
      document.root.at? (propertyPath "q" ++ [.member "readOnly"]) = some (.bool true) := by
  obtain ⟨document, finish, h, hcheck⟩ := exists_of_bundlesTo bundlesTo_flaggedShelf
  rw [Bool.and_eq_true, Bool.and_eq_true, Option.isNone_iff_eq_none, Option.isNone_iff_eq_none,
    Option.any_eq_true] at hcheck
  obtain ⟨⟨hp, hb⟩, value, hq, hvalue⟩ := hcheck
  have heq : value = .bool true := by
    cases value <;> simp_all [Json.asBool?]
  exact ⟨by decide, rfl, rfl, document, finish, h, hp, hb, heq ▸ hq⟩

end OpenApi
