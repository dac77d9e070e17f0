import OpenApi.Proofs.Bundle.Meaning

/-!
# Where the references of a bundled document come from

Every reference of a bundled document is a link that the walk wrote, or stands beside the text of a
Reference Object, where nothing is walked. A link leads into the root as it was written, to a component
schema by its name, or to the place where a target was taken in first. One thing could put another
text in the place of a reference, and it is excluded by hypothesis: no object may become a Reference
Object by being bundled. Where no Reference Object has another reference below it, only links are left.

A link to a place is only written for a target whose fragment does not name a declared schema.
-/

namespace OpenApi

/-! ## Parts of documents -/

/-- Some document has a node. -/
def Library.Holds (docs : Library) (base : Url) (node : Json) : Prop :=
  ∃ tree path, docs base = some tree ∧ tree.at? path = some node

/-- Some document has all values of a part. -/
def Part.Held (docs : Library) (base : Url) : Part → Prop
  | .value node => docs.Holds base node
  | .items _ rest => ∀ item ∈ rest, docs.Holds base item
  | .members rest => ∀ entry ∈ rest, docs.Holds base entry.2

/-- The texts of the references in a part. -/
def Part.references : Part → List String
  | .value node => node.references
  | .items _ rest => Json.itemReferences rest
  | .members rest => Json.memberReferences rest

/-- What is asked of documents so that only links become references. -/
structure Library.Plain (docs : Library) (hoisted : Members) : Prop where
  /-- No object repeats a name. -/
  proper : ∀ {url tree}, docs url = some tree → tree.proper = true
  /-- No Reference Object has another reference below it. -/
  flat : ∀ {url node text}, docs.Holds url node → node.reference? = some text →
    node.references = [text]
  /-- Nothing turns into a Reference Object. -/
  undisguised : docs.Undisguised hoisted

section

variable {docs : Library} {base : Url}

theorem Library.Holds.of_mem_items {items : List Json} (h : docs.Holds base (.array items))
    {item : Json} (hm : item ∈ items) : docs.Holds base item := by
  obtain ⟨tree, path, hd, ha⟩ := h
  obtain ⟨index, hlt, hi⟩ := List.mem_iff_getElem.mp hm
  exact ⟨tree, _, hd, Json.at?_item ha (hi ▸ List.getElem?_eq_getElem hlt)⟩

theorem Library.Holds.of_mem_members {members : Members} (h : docs.Holds base (.object members))
    (hproper : ∀ {tree}, docs base = some tree → tree.proper = true) {name : String} {value : Json}
    (hm : (name, value) ∈ members) : docs.Holds base value := by
  obtain ⟨tree, path, hd, ha⟩ := h
  have hnodup := (Json.proper_object_iff.mp (Json.proper_of_at? (hproper hd) ha)).1
  exact ⟨tree, _, hd, Json.at?_member ha (lookup_of_mem hnodup hm)⟩

/-- Whether a value has no reference but its own, if it is a Reference Object. -/
def Json.isFlat (value : Json) : Bool := value.reference?.all fun text => value.references = [text]

/-- Whether no object of listed documents repeats a name, and no Reference Object has another
reference below it. -/
def isFlat (entries : List (Url × Json)) : Bool :=
  entries.all fun (_, tree) => tree.proper && (tree.sites []).all (·.2.isFlat)

/-- Listed documents that pass the check are plain if they are undisguised. -/
theorem plain_of_isFlat {entries : List (Url × Json)} {hoisted : Members}
    (hfinite : ∀ {url tree}, docs url = some tree → (url, tree) ∈ entries)
    (hflat : isFlat entries = true) (hu : docs.Undisguised hoisted) : docs.Plain hoisted where
  proper hd := by
    have htree := List.all_eq_true.mp hflat _ (hfinite hd)
    rw [Bool.and_eq_true] at htree
    exact htree.1
  flat := by
    rintro url node text ⟨tree, path, hd, ha⟩ hr
    have htree := List.all_eq_true.mp hflat _ (hfinite hd)
    rw [Bool.and_eq_true] at htree
    have hnode := List.all_eq_true.mp htree.2 _ (Json.mem_sites_of_at? [] ha)
    rw [Json.isFlat, hr, Option.all_some, decide_eq_true_iff] at hnode
    exact hnode
  undisguised := hu

theorem Library.Holds.of_node? {target : Url} {node : Json} (h : docs.node? target = some node) :
    docs.Holds target.document node := by
  obtain ⟨tree, path, _, hd, ha⟩ := exists_site?_of_node? h
  exact ⟨tree, path, hd, ha⟩

end

/-! ## Origins -/

/-- A reference into the root leaves a text in the bundled document. -/
def Kept (docs : Library) (rootUrl : Url) (written kept : String) : Prop :=
  ∃ base tree target, docs base = some tree ∧ written ∈ tree.references ∧
    joinReference base written = .ok target ∧ target.document = rootUrl ∧
    kept = "#" ++ target.fragment.getD ""

/-- A link to the place of a target outside the root whose fragment does not name a declared schema.
-/
def IsPlaceLink (rootUrl : Url) (s : Progress) (text : String) : Prop :=
  ∃ target place, target.document ≠ rootUrl ∧ (target, place) ∈ s.places ∧
    hoistName? target.document (target.fragment.getD "") .other = none ∧ text = "#" ++ place.text

/-- What a reference of the bundled document may say, by the tables. -/
inductive Origin (docs : Library) (rootUrl : Url) (s : Progress) : String → Prop where
  | root {written text} (h : Kept docs rootUrl written text) : Origin docs rootUrl s text
  | named {target name} (hn : s.names.lookup target = some name) :
      Origin docs rootUrl s ("#" ++ (Pointer.home name).text)
  | placed {target place} (he : target.document ≠ rootUrl) (hn : s.names.lookup target = none)
      (hp : (target, place) ∈ s.places) : Origin docs rootUrl s ("#" ++ place.text)
  | beside {base members own text} (hh : docs.Holds base (.object members))
      (hr : (Json.object members).reference? = some own)
      (hm : text ∈ Json.memberReferences members) : Origin docs rootUrl s text

/-- A text that bundling carries into the assembled tree: what is kept of a reference into the root, or
a text that stands beside the text of a reference. -/
def Library.Carries (docs : Library) (url : Url) (text : String) : Prop :=
  (∃ written, Kept docs url written text) ∨
    ∃ base members own, docs.Holds base (.object members) ∧
      (Json.object members).reference? = some own ∧ text ∈ Json.memberReferences members

section

variable {docs : Library} {rootUrl base : Url} {s : Progress} {path : Path} {hoisted : Members}

theorem Leads.origin {target : Url} {new : String} (h : Leads rootUrl s path target new)
    {node : Json} {text : String} (hh : docs.Holds base node) (hr : node.reference? = some text)
    (ht : joinReference base text = .ok target) : Origin docs rootUrl s new := by
  cases h with
  | root he =>
      obtain ⟨tree, place, hd, ha⟩ := hh
      have hm := Json.references_subset_of_at? ha (Json.mem_references_of_reference? hr)
      exact .root ⟨base, tree, target, hd, hm, ht, he, rfl⟩
  | named _ hn _ => exact .named hn
  | placed he hn hp => exact .placed he hn hp

theorem memberReferences_set (name : String) (value : Json) (members : Members) :
    Json.memberReferences (Members.set name value members)
      ⊆ value.references ++ Json.memberReferences members := by
  intro text hm
  induction members with
  | nil =>
      rw [Members.set, Json.memberReferences, Json.memberReferences, List.append_nil] at hm
      exact List.mem_append_left _ hm
  | cons entry rest ih =>
      obtain ⟨key, old⟩ := entry
      unfold Members.set at hm
      unfold Json.memberReferences
      split at hm
      · rw [Json.memberReferences, List.mem_append] at hm
        exact hm.elim (List.mem_append_left _) fun h =>
          List.mem_append_right _ (List.mem_append_right _ h)
      · rw [Json.memberReferences, List.mem_append] at hm
        rcases hm with h | h
        · exact List.mem_append_right _ (List.mem_append_left _ h)
        · exact (List.mem_append.mp (ih h)).elim (List.mem_append_left _) fun h =>
            List.mem_append_right _ (List.mem_append_right _ h)

/-- A Reference Object that gets another text has this one and the references that stand beside it. -/
theorem references_withReference {members : Members} {text : String} (new : String)
    (hr : (Json.object members).reference? = some text) :
    ((Json.object members).withReference new).references
      ⊆ new :: Json.memberReferences members := by
  have hnew := reference?_withReference new hr
  rw [Json.withReference] at hnew ⊢
  rw [Json.references, hnew, Option.toList_some, List.singleton_append]
  exact List.cons_subset_cons new (memberReferences_set "$ref" (.string new) members)

/-- The references of an image are links, or stand beside the text of a Reference Object. -/
theorem Image.origin {part part' : Part} (h : Image docs rootUrl s base path part part')
    (hp : docs.Proper) (hu : docs.Undisguised hoisted) (hh : part.Held docs base) :
    ∀ text ∈ part'.references, Origin docs rootUrl s text := by
  induction h with
  | @scalar _ _ value hs =>
      intro text hm
      cases value with
      | array | object => cases hs
      | _ => cases hm
  | array _ ih => exact ih fun item hm => hh.of_mem_items hm
  | @object base _ members members' hr himage ih =>
      have hheld : docs.Holds base (.object members) := hh
      obtain ⟨tree, place, hd, ha⟩ := hh
      -- it is no Reference Object now either, so all its references are those of its members
      have hnone : (Json.object members').reference? = none :=
        (Image.object hr himage).reference?_eq_none hu hd ha hr
      intro text hm
      rw [Part.references, Json.references, hnone, Option.toList_none, List.nil_append] at hm
      exact ih (fun entry he => hheld.of_mem_members hp he) text hm
  | noItems | noMembers =>
      intro text hm
      cases hm
  | item _ _ ihv ihr =>
      intro text hm
      rw [Part.references, Json.itemReferences, List.mem_append] at hm
      rcases hm with hm | hm
      · exact ihv (hh _ List.mem_cons_self) text hm
      · exact ihr (fun item hi => hh item (List.mem_cons_of_mem _ hi)) text hm
  | member _ _ ihv ihr =>
      intro text hm
      rw [Part.references, Json.memberReferences, List.mem_append] at hm
      rcases hm with hm | hm
      · exact ihv (hh _ List.mem_cons_self) text hm
      · exact ihr (fun entry he => hh entry (List.mem_cons_of_mem _ he)) text hm
  | @link _ _ node _ _ new hr ht hl =>
      intro text hm
      obtain ⟨members, rfl, _⟩ := Json.exists_members_of_reference? hr
      rcases List.mem_cons.mp (references_withReference new hr hm) with rfl | hm
      · exact hl.origin hh hr ht
      · exact .beside hh hr hm
  | inlined _ _ hn _ ih => exact ih (.of_node? hn)

/-! ## What was hoisted -/

theorem mem_set {name : String} {value : Json} {members : Members} {entry : String × Json}
    (h : entry ∈ Members.set name value members) : entry = (name, value) ∨ entry ∈ members := by
  induction members with
  | nil => exact .inl (List.mem_singleton.mp h)
  | cons first rest ih =>
      obtain ⟨key, old⟩ := first
      unfold Members.set at h
      split at h
      · next hk =>
          rcases List.mem_cons.mp h with rfl | h
          · exact .inl (by rw [hk])
          · exact .inr (List.mem_cons_of_mem _ h)
      · rcases List.mem_cons.mp h with rfl | h
        · exact .inr List.mem_cons_self
        · exact (ih h).imp_right (List.mem_cons_of_mem _)

/-- A component schema came about by hoisting a target: it is the image of the node of the target, under
the name that the target is to have or a numbered one. -/
structure Hoists (docs : Library) (rootUrl : Url) (s : Progress) (target : Url) (name : String)
    (schema : Json) : Prop where
  targeted : docs.Targets target
  named : ∃ position wanted taken,
    hoistName? target.document (target.fragment.getD "") position = some wanted ∧
      name = Walk.freeName taken wanted
  image : ∃ node, docs.node? target = some node ∧
    Image docs rootUrl s target.document (homePath name) (.value node) (.value schema)

/-- Every component schema that was taken in came about by hoisting a target. -/
def Hoisted (docs : Library) (rootUrl : Url) (s : Progress) : Prop :=
  ∀ name schema, (name, schema) ∈ s.hoisted → ∃ target, Hoists docs rootUrl s target name schema

theorem Hoists.mono {s' : Progress} {target : Url} {name : String} {schema : Json}
    (h : Hoists docs rootUrl s target name schema) (hg : s.Grows s') :
    Hoists docs rootUrl s' target name schema := by
  obtain ⟨ht, hnamed, node, hn, himage⟩ := h
  exact ⟨ht, hnamed, node, hn, himage.mono hg⟩

theorem Hoisted.mono {s' : Progress} (h : Hoisted docs rootUrl s) (hg : s.Grows s')
    (hs : s'.hoisted = s.hoisted) : Hoisted docs rootUrl s' := by
  intro name schema hm
  rw [hs] at hm
  obtain ⟨target, hhoists⟩ := h name schema hm
  exact ⟨target, hhoists.mono hg⟩

theorem Library.Holds.targets {node : Json} {text : String} {target : Url} (h : docs.Holds base node)
    (hr : node.reference? = some text) (ht : joinReference base text = .ok target) :
    docs.Targets target := by
  obtain ⟨tree, path, hd, ha⟩ := h
  exact ⟨base, tree, text, hd,
    Json.references_subset_of_at? ha (Json.mem_references_of_reference? hr), ht⟩

/-- What a run through a part of the documents hoists comes about by hoisting targets. -/
theorem Runs.hoisted_images {position : Position} {part part' : Part} {s' : Progress}
    (h : Runs docs rootUrl base path position part s part' s') (hs : s.Sound) (hd : docs.Proper)
    (hheld : part.Held docs base) (hh : Hoisted docs rootUrl s) : Hoisted docs rootUrl s' := by
  induction h with
  | scalar | noItems | noMembers | link => exact hh
  | array _ ih => exact ih hs (fun item hm => hheld.of_mem_items hm) hh
  | object _ _ ih => exact ih hs (fun entry hm => hheld.of_mem_members hd hm) hh
  | item hv _ ihv ihr =>
      exact ihr (hv.sound hs) (fun item hm => hheld item (List.mem_cons_of_mem _ hm))
        (ihv hs (hheld _ List.mem_cons_self) hh)
  | member hv _ ihv ihr =>
      exact ihr (hv.sound hs) (fun entry hm => hheld entry (List.mem_cons_of_mem _ hm))
        (ihv hs (hheld _ List.mem_cons_self) hh)
  | inlined _ _ _ hn _ ih =>
      exact ih hs.atPlace.withShelf (.of_node? hn) (hh.mono Progress.Grows.atPlace.withShelf rfl)
  | @hoisted _ _ position _ _ target wanted name node schema _ s s' hr ht hv hw hn h ih =>
      obtain ⟨_, hname, hplace, hwanted⟩ := verdict_eq_hoist hv
      have hfree : name ∉ s.taken := hw ▸ Walk.freeName_notMem s.taken wanted
      have hsound : (s.withName target name).Sound := hs.withName hfree
      have hgrows : s.Grows (s.withName target name) := .withName hname hplace
      have hlast : s'.Grows (s'.withSchema name schema) :=
        .addSchema (h.lookup_hoisted_of_free hs hfree)
      have himages : Hoisted docs rootUrl s' :=
        ih hsound.withShelf (.of_node? hn) (hh.mono hgrows.withShelf rfl)
      intro other found he
      rcases mem_set he with heq | he
      · cases heq
        exact ⟨target, hheld.targets hr ht, ⟨position, wanted, s.taken, hwanted, hw⟩, node, hn,
          (h.image hsound.withShelf).mono hlast⟩
      · obtain ⟨target', hhoists⟩ := himages other found he
        exact ⟨target', hhoists.mono hlast⟩

end

/-! ## What was added -/

section

variable {hoisted more members : Members}

theorem references_set {key : String} (hkey : key ≠ "$ref") (inner : Json) (members : Members) :
    (Json.object (Members.set key inner members)).references
      ⊆ (Json.object members).references ++ inner.references := by
  intro text hm
  rw [Json.references, reference?_set hkey, List.mem_append] at hm
  rw [Json.references, List.mem_append, List.mem_append]
  rcases hm with hm | hm
  · exact .inl (.inl hm)
  · exact (List.mem_append.mp (memberReferences_set key inner members hm)).symm.imp_left .inr

theorem exists_mem_of_mem_memberReferences {text : String}
    (h : text ∈ Json.memberReferences members) : ∃ entry ∈ members, text ∈ entry.2.references := by
  induction members with
  | nil => cases h
  | cons entry rest ih =>
      rw [Json.memberReferences, List.mem_append] at h
      rcases h with h | h
      · exact ⟨entry, List.mem_cons_self, h⟩
      · obtain ⟨found, hm, ht⟩ := ih h
        exact ⟨found, List.mem_cons_of_mem _ hm, ht⟩

theorem memberReferences_setAll (more members : Members) :
    Json.memberReferences (Members.setAll more members)
      ⊆ Json.memberReferences more ++ Json.memberReferences members := by
  intro text hm
  induction more generalizing members with
  | nil => exact hm
  | cons entry rest ih =>
      obtain ⟨name, value⟩ := entry
      rw [Json.memberReferences, List.append_assoc, List.mem_append]
      rcases List.mem_append.mp (ih (Members.set name value members) hm) with hm | hm
      · exact .inr (List.mem_append_left _ hm)
      · rcases List.mem_append.mp (memberReferences_set name value members hm) with hm | hm
        · exact .inl hm
        · exact .inr (List.mem_append_right _ hm)

theorem references_setAll (hn : more.names.Nodup)
    (hm : ∀ text, more.lookup "$ref" ≠ some (.string text)) :
    (Json.object (Members.setAll more members)).references
      ⊆ (Json.object members).references ++ Json.memberReferences more := by
  have hreference : ∀ {text}, (Json.object (Members.setAll more members)).reference? = some text →
      (Json.object members).reference? = some text := by
    intro text hr
    change ((Members.setAll more members).lookup "$ref").bind _ = _ at hr
    rw [Members.lookup_setAll hn] at hr
    cases hl : more.lookup "$ref" with
    | none =>
        rw [hl] at hr
        exact hr
    | some value =>
        rw [hl] at hr
        cases value with
        | string found => exact absurd hl (hm found)
        | _ => cases hr
  intro text h
  rw [Json.references, List.mem_append, Option.mem_toList] at h
  rw [Json.references, List.mem_append, List.mem_append, Option.mem_toList]
  rcases h with h | h
  · exact .inl (.inl (hreference h))
  · exact (List.mem_append.mp (memberReferences_setAll more members h)).symm.imp_left .inr

/-- Whatever is a reference of the bundled document is one of what was walked or of what was hoisted.
-/
theorem references_assembled {walked bundled : Json} (hn : hoisted.names.Nodup)
    (hm : ∀ text, hoisted.lookup "$ref" ≠ some (.string text))
    (h : assembled hoisted walked = .ok bundled) :
    bundled.references ⊆ walked.references ++ Json.memberReferences hoisted := by
  unfold assembled at h
  split at h
  · cases h
    exact List.subset_append_left _ _
  · obtain ⟨members, components, schemas, rfl, hcomponents, hschemas, rfl⟩ := addSchemas_eq_ok h
    have hbelow : ∀ {name : String} {inner outer : Members},
        outer.lookup name = some (.object inner) ∨ outer.lookup name = none ∧ inner = [] →
        (Json.object inner).references ⊆ (Json.object outer).references := by
      intro name inner outer hl
      rcases hl with hl | ⟨_, rfl⟩
      · have hstep : (Json.object outer).step? (.member name) = some (.object inner) := hl
        exact Json.references_subset_of_step? hstep
      · exact List.nil_subset _
    -- a reference is one of what was set, or was there before
    intro text ht
    rcases List.mem_append.mp (references_set (by decide) _ _ ht) with ht | ht
    · exact List.mem_append_left _ ht
    · rcases List.mem_append.mp (references_set (by decide) _ _ ht) with ht | ht
      · exact List.mem_append_left _ (hbelow hcomponents ht)
      · rcases List.mem_append.mp (references_setAll hn hm ht) with ht | ht
        · exact List.mem_append_left _ (hbelow hcomponents (hbelow hschemas ht))
        · exact List.mem_append_right _ ht

end

/-! ## Places -/

theorem hoistName?_other {document : Url} {fragment : String} {position : Position}
    (h : hoistName? document fragment position = none) :
    hoistName? document fragment .other = none := by
  rw [hoistName?] at h ⊢
  split
  · rfl
  · next hs =>
      rw [hs] at h
      exact h
  · next hs =>
      rw [hs] at h
      exact h
  · rfl

/-- Every place is that of a target with a name or of one whose fragment does not name a declared
schema. -/
def PlacesUnnamed (s : Progress) : Prop :=
  ∀ {target place}, (target, place) ∈ s.places → s.names.lookup target = none →
    hoistName? target.document (target.fragment.getD "") .other = none

theorem Runs.placesUnnamed {docs : Library} {rootUrl base : Url} {path : Path}
    {position : Position} {part part' : Part} {s s' : Progress}
    (h : Runs docs rootUrl base path position part s part' s') (hp : PlacesUnnamed s) :
    PlacesUnnamed s' := by
  refine h.preserves (P := PlacesUnnamed) ?_ ?_ ?_ ?_ hp
  · intro s target pointer position hv hp other place hm hn
    rcases List.mem_cons.mp hm with heq | hm
    · cases heq
      -- an alias has a name; any other target that is taken in here has none to be hoisted under
      rcases (verdict_eq_inline hv).2 with ⟨name, hname, _⟩ | ⟨_, _, hhoist⟩
      · cases hname.symm.trans hn
      · exact hoistName?_other hhoist
    · exact hp hm hn
  · intro s target pointer position wanted name hv hp other place hm hn
    rw [Progress.lookup_withName] at hn
    split at hn
    · simp at hn
    · exact hp hm hn
  · exact fun hp => hp
  · exact fun hp => hp

/-! ## Whole bundlings -/

section

variable {docs : Library} {url : Url} {document : Document} {root walked : Json}
  {start finish : Progress}

/-- The walk of the root hoists by hoisting targets. -/
theorem Walked.hoisted_images (hb : Walked docs url root walked start finish) (hs : start.Sound)
    (hd : docs.Proper) : Hoisted docs url finish := by
  refine hb.runs.hoisted_images hs hd ⟨root, [], hb.found, rfl⟩ fun name schema hm => ?_
  rw [hb.hoisted] at hm
  simp at hm

/-- The references of a bundled document are links, or stand beside the text of a Reference Object. -/
theorem Assembled.origin {bundled : Json} (hb : Assembled docs url bundled root walked start finish)
    (hs : start.Sound) (hp : docs.Proper) (hu : docs.Undisguised finish.hoisted) :
    ∀ text ∈ bundled.references, Origin docs url finish text := by
  intro text hm
  have hsub := references_assembled hb.nodup_hoisted hu.hoisted hb.assembled
  rcases List.mem_append.mp (hsub hm) with hm | hm
  · exact (hb.runs.image hs).origin hp hu ⟨root, [], hb.found, rfl⟩ text hm
  · obtain ⟨entry, he, hm⟩ := exists_mem_of_mem_memberReferences hm
    obtain ⟨target, hhoists⟩ := hb.hoisted_images hs hp _ _ he
    obtain ⟨node, hn, himage⟩ := hhoists.image
    exact himage.origin hp hu (.of_node? hn) text hm

/-- A reference of the bundled document is kept from one into the root, or it is the link to a
component schema, or a link to a place. -/
theorem Bundled.kept_or_link (hb : Bundled docs url document root walked start finish)
    (hs : start.Sound) (hp : docs.Plain finish.hoisted) {text : String}
    (hm : text ∈ document.root.references) :
    (∃ written, Kept docs url written text) ∨ (∃ name, text = "#" ++ (Pointer.home name).text) ∨
      IsPlaceLink url finish text := by
  have hplaces : PlacesUnnamed finish := by
    apply hb.runs.placesUnnamed
    intro target place hm
    rw [hb.places] at hm
    simp at hm
  cases hb.origin hs hp.proper hp.undisguised text hm with
  | root h => exact .inl ⟨_, h⟩
  | named => exact .inr (.inl ⟨_, rfl⟩)
  | placed he hn hplace => exact .inr (.inr ⟨_, _, he, hplace, hplaces hplace hn, rfl⟩)
  | beside hh hr hm =>
      -- nothing stands beside a text
      have hflat := hp.flat hh hr
      rw [Json.references, hr, Option.toList_some, List.singleton_append, List.cons.injEq] at hflat
      rw [hflat.2] at hm
      cases hm

end

end OpenApi
