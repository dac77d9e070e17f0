import OpenApi.Proofs.Bundle.Transparency
import OpenApi.Proofs.Url.Document

/-!
# Self-contained documents are left as they are

A reference into the root keeps its fragment, so a document that refers to nothing else should come
back as it went in. That is not a matter of the walk alone: each text is joined to the URL of the
root, the fragment is percent-encoded, and the document of the result is compared with the root. A
fragment of plain characters is the same after all of this, and the URL of the root, which has no
fragment, is its own document. The walk then replaces each `$ref` by its own text, reserves no name
and takes nothing in: `bundle_selfContained`.

What stands beside a `$ref` is not walked. References in there are conditions on the document all the
same, since the check after the walk looks at every reference.
-/

namespace OpenApi

/-- Whether a reference text is a number sign before characters that joining leaves alone. -/
def Url.isPlainLink (text : String) : Bool :=
  match text.toList with
  | '#' :: fragment => fragment.all isPlain
  | _ => false

/-- A root document of OpenAPI 3 all of whose references, nested ones included, are plain fragments
that resolve in it. -/
structure Json.SelfContained (root : Json) : Prop where
  version : ∃ rest, root.member? "openapi" = some (.string ("3." ++ rest))
  plain : ∀ text ∈ root.references, Url.isPlainLink text = true
  resolves : ∀ text ∈ root.references, (root.resolveLocal? text).isSome = true

/-! ## One reference -/

theorem Members.set_of_lookup {members : Members} {name : String} {value : Json}
    (h : members.lookup name = some value) : Members.set name value members = members := by
  induction members with
  | nil => cases h
  | cons entry rest ih =>
      obtain ⟨key, old⟩ := entry
      rw [List.lookup_cons] at h
      unfold set
      by_cases hk : key = name
      · subst hk
        rw [beq_self_eq_true] at h
        cases h
        rw [if_pos rfl]
      · rw [beq_eq_false_iff_ne.mpr (Ne.symm hk)] at h
        rw [if_neg hk, ih h]

/-- A Reference Object that gets its own text stays as it is. -/
theorem Json.withReference_eq_self {value : Json} {text : String}
    (h : value.reference? = some text) : value.withReference text = value := by
  obtain ⟨members, rfl, hl⟩ := exists_members_of_reference? h
  rw [withReference, Members.set_of_lookup hl]

/-- A plain link denotes its fragment in the document that holds it. -/
theorem joinReference_of_isPlainLink {base : Url} {text : String}
    (h : Url.isPlainLink text = true) :
    ∃ fragment, text = "#" ++ fragment ∧
      joinReference base text = .ok { base with fragment := some fragment } := by
  unfold Url.isPlainLink at h
  split at h
  · next fragment htext =>
      have heq : text = String.ofList ('#' :: fragment) := by
        rw [← htext, String.ofList_toList]
      refine ⟨String.ofList fragment, heq.trans ?_, ?_⟩
      · rw [← String.toList_inj]
        simp
      · rw [joinReference, heq, Url.join_plain base (List.all_eq_true.mp h)]
  · cases h

/-- Another fragment does not change the document of a URL. -/
theorem Url.document_withFragment (url : Url) (fragment : Option String) :
    Url.document { url with fragment } = url.document := rfl

/-- A replacement leaves the Reference Objects with this text, and its state, as they are. -/
def Keeps (onReference : OnReference) (text : String) : Prop :=
  ∀ {value : Json} (pointer : Pointer) (position : Position) (s : Progress),
    value.reference? = some text → onReference value text pointer position s = .ok value s

/-- Plain links in the root stay as they are. -/
theorem keeps_replaceReference {source : Source} {url : Url} (hu : url.document = url) (fuel : Nat)
    {text : String} (h : Url.isPlainLink text = true) :
    Keeps (replaceReference source url (fuel + 1) url) text := by
  intro value pointer position s hr
  obtain ⟨fragment, rfl, hj⟩ := @joinReference_of_isPlainLink url _ h
  have hdocument : Url.document { url with fragment := some fragment } = url :=
    (url.document_withFragment _).trans hu
  rw [replaceReference_run, hj]
  dsimp only
  rw [verdict, if_pos hdocument]
  dsimp only [Option.getD_some]
  rw [Json.withReference_eq_self hr]

/-! ## The walk -/

section

variable {onReference : OnReference}

mutual

/-- A walk that keeps the references of a tree keeps the tree. -/
theorem walk_of_keeps (value : Json) (h : ∀ text ∈ value.references, Keeps onReference text)
    (pointer : Pointer) (position : Position) (s : Progress) :
    value.walk onReference pointer position s = .ok value s := by
  cases hr : value.reference? with
  | some text =>
      rw [Json.walk_reference hr]
      exact h text (Json.mem_references_of_reference? hr) pointer position s hr
  | none =>
      cases value with
      | object members =>
          rw [Json.references, hr] at h
          rw [Json.walk_object hr, Walk.map_run, walkMembers_of_keeps members h pointer position s]
      | array items =>
          rw [Json.references] at h
          rw [Json.walk_array, Walk.map_run, walkItems_of_keeps items h pointer _ 0 s]
      | _ => rw [Json.walk_scalar rfl, Walk.pure_run]

theorem walkItems_of_keeps (items : List Json)
    (h : ∀ text ∈ Json.itemReferences items, Keeps onReference text) (pointer : Pointer)
    (position : Position) (index : Nat) (s : Progress) :
    Json.walkItems onReference pointer position index items s = .ok items s := by
  cases items with
  | nil => rfl
  | cons item rest =>
      rw [Json.itemReferences, List.forall_mem_append] at h
      rw [Json.walkItems, Walk.bind_run_ok (walk_of_keeps item h.1 _ position s),
        Walk.bind_run_ok (walkItems_of_keeps rest h.2 pointer position _ s)]
      rfl

theorem walkMembers_of_keeps (members : List (String × Json))
    (h : ∀ text ∈ Json.memberReferences members, Keeps onReference text) (pointer : Pointer)
    (position : Position) (s : Progress) :
    Json.walkMembers onReference pointer position members s = .ok members s := by
  cases members with
  | nil => rfl
  | cons entry rest =>
      obtain ⟨name, value⟩ := entry
      rw [Json.memberReferences, List.forall_mem_append] at h
      rw [Json.walkMembers, Walk.bind_run_ok (walk_of_keeps value h.1 _ _ s),
        Walk.bind_run_ok (walkMembers_of_keeps rest h.2 pointer position s)]
      rfl

end

end

/-! ## The stages around the walk -/

/-- Component schemas that are plain links reserve no name. -/
theorem reserveNames_of_plain {url : Url} (hu : url.document = url) {declared : Members}
    (h : ∀ text ∈ Json.memberReferences declared, Url.isPlainLink text = true)
    (names : List (Url × String)) : reserveNames url declared names = .ok names := by
  induction declared with
  | nil => rfl
  | cons entry rest ih =>
      obtain ⟨name, schema⟩ := entry
      rw [Json.memberReferences, List.forall_mem_append] at h
      unfold reserveNames
      cases hr : schema.reference? with
      | none => exact ih h.2
      | some text =>
          obtain ⟨fragment, _, hj⟩ := @joinReference_of_isPlainLink url _
            (h.1 text (Json.mem_references_of_reference? hr))
          have hroot : ¬(Url.document { url with fragment := some fragment } ≠ url ∧
              (names.lookup { url with fragment := some fragment }).isNone = true) := by
            rintro ⟨hne, _⟩
            exact hne ((url.document_withFragment _).trans hu)
          dsimp only
          rw [hj]
          dsimp only
          rw [if_neg hroot]
          exact ih h.2

theorem memberReferences_componentSchemas_subset (root : Json) :
    Json.memberReferences (root.componentSchemas?.getD []) ⊆ root.references := by
  cases hc : root.componentSchemas? with
  | none => exact List.nil_subset _
  | some members =>
      have hsub := Json.references_subset_of_at? (Json.componentSchemas?_eq_some_iff.mp hc)
      rw [Json.references] at hsub
      exact List.Subset.trans (List.subset_append_right _ _) hsub

theorem checkVersion_of_member {root : Json} {rest : String}
    (h : root.member? "openapi" = some (.string ("3." ++ rest))) : checkVersion root = .ok () := by
  have hprefix : "3.".toList.isPrefixOf ("3." ++ rest).toList = true := by
    rw [String.toList_append, List.isPrefixOf_iff_prefix]
    exact List.prefix_append _ _
  rw [checkVersion, h]
  dsimp only [Option.bind_some, Json.asString?]
  rw [if_pos hprefix]

namespace Json.SelfContained

variable {source : Source} {root : Json} {url : Url} {shelf : Shelf}

/-- The start reads the root and reserves no name. -/
theorem bundleStart_run (h : root.SelfContained) (hu : url.document = url)
    (hl : shelf.lookup url = some root) :
    bundleStart source url { shelf } =
      .ok root { shelf, taken := (root.componentSchemas?.getD []).names } := by
  obtain ⟨rest, hversion⟩ := h.version
  have hplain : ∀ text ∈ memberReferences (root.componentSchemas?.getD []),
      Url.isPlainLink text = true := by
    intro text hm
    exact h.plain text (memberReferences_componentSchemas_subset root hm)
  rw [OpenApi.bundleStart_run, Walk.document_run]
  dsimp only
  rw [hl]
  dsimp only
  rw [checkVersion_of_member hversion, reserveNames_of_plain hu hplain]

/-- A self-contained root is bundled to itself, with nothing hoisted, inlined or fetched. -/
theorem bundleAt_run (h : root.SelfContained) (hu : url.document = url)
    (hl : shelf.lookup url = some root) (fuel : Nat) :
    bundleAt source (fuel + 1) url { shelf } =
      .ok ⟨url.text, root⟩ { shelf, taken := (root.componentSchemas?.getD []).names } := by
  have hkeeps : ∀ text ∈ root.references, Keeps (replaceReference source url (fuel + 1) url) text :=
    fun text hm => keeps_replaceReference hu fuel (h.plain text hm)
  exact bundleAt_eq_ok (h.bundleStart_run hu hl) (walk_of_keeps root hkeeps .root .other _) rfl
    h.resolves

end Json.SelfContained

namespace Loader

/-- For every loader and every identifier that denotes a URL without fragment, registering a
self-contained root and bundling it succeeds, gives the same tree and leaves the loader as it was
after the registration. -/
theorem bundle_selfContained (loader : Loader) {uri : String} {url : Url} {root : Json}
    (hdepth : 0 < loader.depth) (hi : identify uri = .ok url) (hf : url.fragment = none)
    (h : root.SelfContained) :
    ∃ loader', loader.register uri root = .ok loader' ∧
      loader'.bundle uri = (.ok ⟨url.text, root⟩, loader') := by
  have hu : url.document = url := document_of_identify hi hf
  have hl : (loader.shelf.put url root).lookup url = some root := by
    rw [Shelf.lookup_put, if_pos rfl]
  obtain ⟨fuel, hfuel⟩ : ∃ fuel, loader.depth = fuel + 1 := ⟨loader.depth - 1, by omega⟩
  refine ⟨{ loader with shelf := loader.shelf.put url root }, ?_, ?_⟩
  · rw [register, hi]
    rfl
  · rw [bundle, hi]
    dsimp only
    rw [hu, hfuel, h.bundleAt_run hu hl fuel]

/-- The root refers to itself, two of its components to each other, and one of them has another
reference beside its `$ref`. -/
def selfReferring : Json :=
  .object [("openapi", .string "3.1.0"), ("x", .object [("$ref", .string "#")]),
    ("components", .object [("schemas", .object [
      ("A", .object [("$ref", .string "#/components/schemas/B"),
        ("items", .object [("description", .string "twice"), ("$ref", .string "#/x")])]),
      ("B", .object [("oneOf", .array [.object [("$ref", .string "#/components/schemas/A"),
        ("readOnly", .bool true)], .null])])])])]

theorem bundle_selfReferring :
    ∃ url, identify "a/openapi.yaml" = .ok url ∧ selfReferring.references.length = 4 ∧
      ∃ loader', Loader.register { source := .empty } "a/openapi.yaml" selfReferring = .ok loader' ∧
        loader'.bundle "a/openapi.yaml" = (.ok ⟨url.text, selfReferring⟩, loader') := by
  have hself : selfReferring.SelfContained := ⟨⟨"1.0", rfl⟩, by decide, by decide⟩
  obtain ⟨url, hi, hf⟩ : ∃ url, identify "a/openapi.yaml" = .ok url ∧ url.fragment = none :=
    ⟨_, rfl, rfl⟩
  exact ⟨url, hi, by decide,
    bundle_selfContained { source := .empty } (Nat.succ_pos _) hi hf hself⟩

end Loader

end OpenApi
