import OpenApi.Proofs.Bundle.Bisimulation
import OpenApi.Proofs.Bundle.Step

/-!
# The graphs of documents, and documents whose meaning bundling preserves

The nodes of all documents form one graph: a Reference Object leads to the node that its text denotes
beside the URL of its document. The nodes of the bundled document form another, whose references are
local.

`Library.Regular` is what is asked of documents so that their references mean something definite
before and after bundling. It does not exclude one disguise: an object whose member `$ref` is no text
becomes a Reference Object if that member is a reference to a text which is taken in on the spot.
`Library.Undisguised` excludes it. Both are conditions on all nodes of all documents, and where these
are listed they can be checked node by node.
-/

namespace OpenApi

/-! ## The two graphs -/

/-- The node that a target designates. -/
def Library.site? (docs : Library) (target : Url) : Option (Url × Path) :=
  (docs target.document).bind fun tree =>
    (tree.locate? (target.fragment.getD "")).map fun path => (target.document, path)

/-- The nodes of all documents, each by the URL of its document and its path there. -/
def sourceGraph (docs : Library) : Graph (Url × Path) where
  value? n := (docs n.1).bind (·.at? n.2)
  next? n :=
    ((docs n.1).bind (·.at? n.2)).bind fun value =>
      value.reference?.bind fun text => (joinReference n.1 text).toOption.bind docs.site?
  below n step := (n.1, n.2 ++ [step])
  next?_eq_none hv hr := by rw [hv, Option.bind_some, hr, Option.bind_none]

/-- The nodes of one document with local references. -/
def bundleGraph (tree : Json) : Graph Path where
  value? := tree.at?
  next? path := (tree.at? path).bind fun value => value.reference?.bind tree.locateLocal?
  below path step := path ++ [step]
  next?_eq_none hv hr := by rw [hv, Option.bind_some, hr, Option.bind_none]

section

variable {docs : Library} {url : Url} {tree node : Json} {path : Path}

theorem sourceGraph_value? (hd : docs url = some tree) (hn : tree.at? path = some node) :
    (sourceGraph docs).value? (url, path) = some node := by
  show (docs url).bind (·.at? path) = some node
  rw [hd]
  exact hn

theorem sourceGraph_next? {text : String} {target : Url} (hd : docs url = some tree)
    (hn : tree.at? path = some node) (hr : node.reference? = some text)
    (ht : joinReference url text = .ok target) :
    (sourceGraph docs).next? (url, path) = docs.site? target := by
  show ((docs url).bind (·.at? path)).bind (fun value => value.reference?.bind fun text =>
    (joinReference url text).toOption.bind docs.site?) = _
  rw [hd, Option.bind_some, hn, Option.bind_some, hr, Option.bind_some, ht]
  rfl

theorem bundleGraph_next? {text : String} (hn : tree.at? path = some node)
    (hr : node.reference? = some text) :
    (bundleGraph tree).next? path = tree.locateLocal? text := by
  show (tree.at? path).bind (fun value => value.reference?.bind tree.locateLocal?) = _
  rw [hn, Option.bind_some, hr, Option.bind_some]

end

theorem exists_site?_of_node? {docs : Library} {target : Url} {node : Json}
    (h : docs.node? target = some node) :
    ∃ tree path, docs.site? target = some (target.document, path) ∧
      docs target.document = some tree ∧ tree.at? path = some node := by
  obtain ⟨tree, hd, hn⟩ := Option.bind_eq_some_iff.mp h
  obtain ⟨path, hl, ha⟩ := Json.exists_locate?_of_resolve? hn
  refine ⟨tree, path, ?_, hd, ha⟩
  rw [Library.site?, hd, Option.bind_some, hl]
  rfl

/-! ## What the documents must satisfy -/

/-- What is asked of the documents, of the root among them, and of the names that were hoisted. -/
structure Library.Regular (docs : Library) (rootUrl : Url) (hoisted : Members) : Prop where
  /-- No object repeats a name. -/
  proper : ∀ {url tree}, docs url = some tree → tree.proper = true
  /-- A Reference Object has no other member. -/
  lone : ∀ {url tree path node text}, docs url = some tree → tree.at? path = some node →
    node.reference? = some text → node = .object [("$ref", .string text)]
  /-- No name is empty or holds a `%`. -/
  keys : ∀ {url tree path members}, docs url = some tree →
    tree.at? path = some (.object members) →
    ∀ name ∈ Members.names members, name ≠ "" ∧ '%' ∉ name.toList
  /-- No hoisted name is empty or holds a `%`. -/
  names : ∀ name ∈ hoisted.names, name ≠ "" ∧ '%' ∉ name.toList
  /-- The components of the root, and its component schemas, are objects but no references. -/
  components : ∀ {root path value}, docs rootUrl = some root →
    path = [.member "components"] ∨ path = [.member "components", .member "schemas"] →
    root.at? path = some value → (∃ members, value = .object members) ∧ value.reference? = none
  /-- A reference into the root resolves there. -/
  rooted : ∀ {url tree path node text target root}, docs url = some tree →
    tree.at? path = some node → node.reference? = some text →
    joinReference url text = .ok target → target.document = rootUrl → docs rootUrl = some root →
    ∃ found, root.resolve? (target.fragment.getD "") = some found
  /-- No reference designates the text of another reference. -/
  apart : ∀ {url tree path node text target found above holder}, docs url = some tree →
    tree.at? path = some node → node.reference? = some text →
    joinReference url text = .ok target → docs target.document = some found →
    found.locate? (target.fragment.getD "") = some (above ++ [.member "$ref"]) →
    found.at? above = some holder → holder.reference? = none

/-- Nothing turns into a Reference Object by being bundled: no member `$ref` refers to a text, and no
text is hoisted under the name `$ref`. -/
structure Library.Undisguised (docs : Library) (hoisted : Members) : Prop where
  member : ∀ {url tree path node reference m text}, docs url = some tree →
    tree.at? (path ++ [.member "$ref"]) = some node → node.reference? = some reference →
    (sourceGraph docs).Ends (url, path ++ [.member "$ref"]) m →
    (sourceGraph docs).value? m ≠ some (.string text)
  hoisted : ∀ text, hoisted.lookup "$ref" ≠ some (.string text)

/-! ## Checking the conditions -/

/-- Whether a name is safe in a pointer: not empty, and without `%`. -/
def isPlainName (name : String) : Bool := !name.isEmpty && !name.toList.contains '%'

/-- Whether a value is an object whose only member is the text of its reference. -/
def Json.isLone : Json → Bool
  | .object [(_, .string _)] => true
  | _ => false

/-- Whether a reference beside `url`, if it resolves, does not designate the text of another one; if
it does not resolve, it must lead outside the root. -/
def Library.isApart (docs : Library) (rootUrl url : Url) (text : String) : Bool :=
  match joinReference url text with
  | .error _ => true
  | .ok target =>
    match docs target.document with
    | none => true
    | some found =>
      match found.locate? (target.fragment.getD "") with
      | none => target.document ≠ rootUrl
      | some place =>
        place.getLast? ≠ some (.member "$ref") || (found.at? place.dropLast).all (·.reference?.isNone)

/-- Whether a node of the document `url` is as `Library.Regular` asks. -/
def Library.isRegularAt (docs : Library) (rootUrl url : Url) (node : Json) : Bool :=
  (node.asObject?.all fun members => members.names.all isPlainName) &&
    node.reference?.all fun text => node.isLone && docs.isApart rootUrl url text

/-- Whether a tree has objects, but no Reference Objects, for its components and component schemas.
-/
def Json.hasPlainComponents (tree : Json) : Bool :=
  [[Step.member "components"], [.member "components", .member "schemas"]].all fun path =>
    (tree.at? path).all fun value => value.asObject?.isSome && value.reference?.isNone

/-- Whether listed documents and hoisted names are as `Library.Regular` asks. -/
def isRegular (docs : Library) (entries : List (Url × Json)) (rootUrl : Url) (hoisted : Members) :
    Bool :=
  hoisted.names.all isPlainName && (docs rootUrl).all Json.hasPlainComponents &&
    entries.all fun (url, tree) =>
      tree.proper && (tree.sites []).all fun (_, node) => docs.isRegularAt rootUrl url node

/-- Whether a value has no Reference Object as its member `$ref`. -/
def Json.isUndisguised (value : Json) : Bool :=
  (value.member? "$ref").all (·.reference?.isNone)

/-- Whether no object of listed documents has a Reference Object as its member `$ref`. -/
def isUndisguised (entries : List (Url × Json)) : Bool :=
  entries.all fun (_, tree) => (tree.sites []).all (·.2.isUndisguised)

/-- Whether all names of all objects of listed documents pass a check. -/
def allNames (check : String → Bool) (entries : List (Url × Json)) : Bool :=
  entries.all fun (_, tree) => (tree.sites []).all fun (_, value) =>
    value.asObject?.all fun members => members.names.all check

section

variable {docs : Library} {entries : List (Url × Json)} {rootUrl : Url} {hoisted : Members}

theorem of_allNames {check : String → Bool}
    (hfinite : ∀ {url tree}, docs url = some tree → (url, tree) ∈ entries)
    (h : allNames check entries = true) {url : Url} {tree : Json} {path : Path} {members : Members}
    (hd : docs url = some tree) (hn : tree.at? path = some (.object members)) {name : String}
    (hm : name ∈ members.names) : check name = true := by
  have htree := List.all_eq_true.mp h _ (hfinite hd)
  have hnode := List.all_eq_true.mp htree _ (Json.mem_sites_of_at? [] hn)
  change members.names.all check = true at hnode
  exact List.all_eq_true.mp hnode name hm

theorem isPlainName_iff {name : String} :
    isPlainName name = true ↔ name ≠ "" ∧ '%' ∉ name.toList := by
  simp [isPlainName]

theorem eq_of_isLone {node : Json} {text : String} (h : node.isLone = true)
    (hr : node.reference? = some text) : node = .object [("$ref", .string text)] := by
  unfold Json.isLone at h
  split at h
  · next name found =>
      change ([(name, Json.string found)].lookup "$ref").bind _ = _ at hr
      obtain ⟨value, hl, ht⟩ := Option.bind_eq_some_iff.mp hr
      have heq := List.mem_singleton.mp (mem_of_lookup hl)
      rw [Prod.mk.injEq] at heq
      obtain ⟨rfl, rfl⟩ := heq
      cases ht
      rfl
  · simp at h

theorem reference?_eq_none_of_isApart {url target : Url} {text : String} {found holder : Json}
    {above : Path} (h : docs.isApart rootUrl url text = true) (ht : joinReference url text = .ok target)
    (hfound : docs target.document = some found)
    (hl : found.locate? (target.fragment.getD "") = some (above ++ [.member "$ref"]))
    (hh : found.at? above = some holder) : holder.reference? = none := by
  rw [Library.isApart, ht] at h
  dsimp only at h
  rw [hfound] at h
  dsimp only at h
  rw [hl] at h
  simpa [hh] using h

/-- What is checked of every listed node holds of every node. -/
theorem isRegularAt_of_isRegular
    (hfinite : ∀ {url tree}, docs url = some tree → (url, tree) ∈ entries)
    (h : isRegular docs entries rootUrl hoisted = true) {url : Url} {tree node : Json} {path : Path}
    (hd : docs url = some tree) (hn : tree.at? path = some node) :
    docs.isRegularAt rootUrl url node = true := by
  rw [isRegular, Bool.and_eq_true] at h
  have htree := List.all_eq_true.mp h.2 _ (hfinite hd)
  rw [Bool.and_eq_true] at htree
  exact List.all_eq_true.mp htree.2 _ (Json.mem_sites_of_at? [] hn)

theorem isApart_of_isRegularAt {url : Url} {node : Json} {text : String}
    (h : docs.isRegularAt rootUrl url node = true) (hr : node.reference? = some text) :
    node.isLone = true ∧ docs.isApart rootUrl url text = true := by
  rw [Library.isRegularAt, hr, Option.all_some, Bool.and_eq_true, Bool.and_eq_true] at h
  exact h.2

/-- Documents that pass the check are regular. -/
theorem regular_of_isRegular
    (hfinite : ∀ {url tree}, docs url = some tree → (url, tree) ∈ entries)
    (h : isRegular docs entries rootUrl hoisted = true) : docs.Regular rootUrl hoisted where
  proper hd := by
    rw [isRegular, Bool.and_eq_true] at h
    have htree := List.all_eq_true.mp h.2 _ (hfinite hd)
    exact (Bool.and_eq_true _ _ ▸ htree).1
  lone hd hn hr :=
    eq_of_isLone (isApart_of_isRegularAt (isRegularAt_of_isRegular hfinite h hd hn) hr).1 hr
  keys hd hn name hm := by
    have hnode := isRegularAt_of_isRegular hfinite h hd hn
    rw [Library.isRegularAt, Json.asObject?, Option.all_some, Bool.and_eq_true] at hnode
    exact isPlainName_iff.mp (List.all_eq_true.mp hnode.1 name hm)
  names name hm := by
    rw [isRegular, Bool.and_eq_true, Bool.and_eq_true] at h
    exact isPlainName_iff.mp (List.all_eq_true.mp h.1.1 name hm)
  components {root path value} hd hp ha := by
    rw [isRegular, Bool.and_eq_true, Bool.and_eq_true, hd, Option.all_some] at h
    have hmem : path ∈ [[Step.member "components"], [.member "components", .member "schemas"]] := by
      simpa using hp
    have hvalue := List.all_eq_true.mp h.1.2 path hmem
    rw [ha, Option.all_some, Bool.and_eq_true, Option.isNone_iff_eq_none] at hvalue
    refine ⟨?_, hvalue.2⟩
    cases value with
    | object members => exact ⟨members, rfl⟩
    | _ => cases hvalue.1
  rooted {url tree path node text target root} hd hn hr ht he hroot := by
    have hapart := (isApart_of_isRegularAt (isRegularAt_of_isRegular hfinite h hd hn) hr).2
    rw [Library.isApart, ht] at hapart
    dsimp only at hapart
    rw [he, hroot] at hapart
    dsimp only at hapart
    cases hl : root.locate? (target.fragment.getD "") with
    | none =>
        rw [hl] at hapart
        simp at hapart
    | some place =>
        obtain ⟨found, _, hfound⟩ := Json.exists_resolve?_of_locate? hl
        exact ⟨found, hfound⟩
  apart hd hn hr ht hfound hl hh :=
    reference?_eq_none_of_isApart
      (isApart_of_isRegularAt (isRegularAt_of_isRegular hfinite h hd hn) hr).2 ht hfound hl hh

/-- Documents none of whose objects has a Reference Object as its member `$ref` hide none. -/
theorem undisguised_of_isUndisguised
    (hfinite : ∀ {url tree}, docs url = some tree → (url, tree) ∈ entries)
    (h : isUndisguised entries = true)
    (hh : hoisted.lookup "$ref" = none) : docs.Undisguised hoisted where
  member {url tree path node reference m text} hd hn hr _ := by
    rw [Json.at?_concat] at hn
    obtain ⟨holder, ha, hstep⟩ := Option.bind_eq_some_iff.mp hn
    have htree := List.all_eq_true.mp h _ (hfinite hd)
    have hholder := List.all_eq_true.mp htree _ (Json.mem_sites_of_at? [] ha)
    have hmember : holder.member? "$ref" = some node := by
      cases holder with
      | object members => exact hstep
      | _ => cases hstep
    rw [Json.isUndisguised, hmember, Option.all_some, hr] at hholder
    simp at hholder
  hoisted text := by
    rw [hh]
    intro heq
    simp at heq

end

end OpenApi
