import OpenApi.Proofs.Bundle.Whole
import OpenApi.Proofs.Pointer.Construction

/-!
# What a walk makes of a document

`Image` relates a part of a document to what the walk put in its place, without telling what happened
on the way: it looks at the tables only, and since the tables only grow, an image stays one. A
reference has become a link that `Leads` to its target, or the image of its target stands where the
reference stood.

Links may be written before what they lead to: the target of a link to a place or to a name may still
be in progress. `Runs.lands` closes this gap: when a walk is over, the image of every target that it
gave a place or a name stands there. Along the way it keeps what holds of all names of the documents,
such as that they can be read back from a link.
-/

namespace OpenApi

/-! ## Images -/

/-- What a link to `target` that stands at a path may say, by the tables. -/
inductive Leads (rootUrl : Url) (s : Progress) (path : Path) (target : Url) : String → Prop where
  /-- Into the root document, as written. -/
  | root (h : target.document = rootUrl) :
      Leads rootUrl s path target ("#" ++ target.fragment.getD "")
  /-- To the component schema of the target, but not from the home of an alias. -/
  | named {name : String} (he : target.document ≠ rootUrl) (hn : s.names.lookup target = some name)
      (hh : ¬(Pointer.ofPath path = Pointer.home name ∧ s.hoisted.lookup name = none)) :
      Leads rootUrl s path target ("#" ++ (Pointer.home name).text)
  /-- To the place where the target was taken in. -/
  | placed {place : Pointer} (he : target.document ≠ rootUrl)
      (hn : s.names.lookup target = none) (hp : (target, place) ∈ s.places) :
      Leads rootUrl s path target ("#" ++ place.text)

/-- The image of a part of the document `base`, standing at a path of the bundled document. -/
inductive Image (docs : Library) (rootUrl : Url) (s : Progress) :
    Url → Path → Part → Part → Prop where
  | scalar {base path value} (h : value.isScalar = true) :
      Image docs rootUrl s base path (.value value) (.value value)
  | array {base path items items'}
      (h : Image docs rootUrl s base path (.items 0 items) (.items 0 items')) :
      Image docs rootUrl s base path (.value (.array items)) (.value (.array items'))
  | object {base path members members'} (hr : (Json.object members).reference? = none)
      (h : Image docs rootUrl s base path (.members members) (.members members')) :
      Image docs rootUrl s base path (.value (.object members)) (.value (.object members'))
  | noItems {base path index} :
      Image docs rootUrl s base path (.items index []) (.items index [])
  | item {base path index item item' rest rest'}
      (hv : Image docs rootUrl s base (path ++ [.item index]) (.value item) (.value item'))
      (hr : Image docs rootUrl s base path (.items (index + 1) rest) (.items (index + 1) rest')) :
      Image docs rootUrl s base path (.items index (item :: rest)) (.items index (item' :: rest'))
  | noMembers {base path} : Image docs rootUrl s base path (.members []) (.members [])
  | member {base path name value value' rest rest'}
      (hv : Image docs rootUrl s base (path ++ [.member name]) (.value value) (.value value'))
      (hr : Image docs rootUrl s base path (.members rest) (.members rest')) :
      Image docs rootUrl s base path
        (.members ((name, value) :: rest)) (.members ((name, value') :: rest'))
  | link {base path value text target new} (hr : value.reference? = some text)
      (ht : joinReference base text = .ok target) (hl : Leads rootUrl s path target new) :
      Image docs rootUrl s base path (.value value) (.value (value.withReference new))
  | inlined {base path value text target node value'} (hr : value.reference? = some text)
      (ht : joinReference base text = .ok target) (hn : docs.node? target = some node)
      (h : Image docs rootUrl s target.document path (.value node) (.value value')) :
      Image docs rootUrl s base path (.value value) (.value value')

section

variable {docs : Library} {rootUrl : Url} {s s' : Progress}

theorem Leads.mono {path : Path} {target : Url} {new : String}
    (h : Leads rootUrl s path target new) (hg : s.Grows s') : Leads rootUrl s' path target new := by
  cases h with
  | root h => exact .root h
  | named he hn hh =>
      -- where nothing was hoisted under the name now, nothing was before
      refine .named he (hg.names hn) ?_
      rintro ⟨hhome, hnone⟩
      refine hh ⟨hhome, ?_⟩
      cases hl : s.hoisted.lookup _ with
      | none => rfl
      | some schema =>
          rw [hg.hoisted hl] at hnone
          simp at hnone
  | placed he hn hp => exact .placed he (hg.unnamed hp hn) (hg.places hp)

theorem Image.mono {base : Url} {path : Path} {part part' : Part}
    (h : Image docs rootUrl s base path part part') (hg : s.Grows s') :
    Image docs rootUrl s' base path part part' := by
  induction h with
  | scalar h => exact .scalar h
  | array _ ih => exact .array ih
  | object hr _ ih => exact .object hr ih
  | noItems => exact .noItems
  | item _ _ ihv ihr => exact .item ihv ihr
  | noMembers => exact .noMembers
  | member _ _ ihv ihr => exact .member ihv ihr
  | link hr ht hl => exact .link hr ht (hl.mono hg)
  | inlined hr ht hn _ ih => exact .inlined hr ht hn ih

/-- A link that a walk writes leads to its target. -/
theorem leads_of_verdict {target : Url} {path : Path} {position : Position} {new : String}
    (h : verdict rootUrl target (.ofPath path) position s = .link new) :
    Leads rootUrl s path target new := by
  rcases verdict_eq_link h with ⟨hroot, rfl⟩ | ⟨he, name, hn, hh, rfl⟩ | ⟨he, hn, place, hp, rfl⟩
  · exact .root hroot
  · exact .named he hn hh
  · exact .placed he hn (mem_of_lookup hp)

/-- What a walk gives back is an image of what it was given, by the tables after it. -/
theorem Runs.image {base : Url} {path : Path} {position : Position} {part part' : Part}
    (h : Runs docs rootUrl base path position part s part' s') (hs : s.Sound) :
    Image docs rootUrl s' base path part part' := by
  induction h with
  | scalar h => exact .scalar h
  | array _ ih => exact .array (ih hs)
  | object hr _ ih => exact .object hr (ih hs)
  | noItems => exact .noItems
  | item hv hr ihv ihr =>
      have hs₂ := hv.sound hs
      exact .item ((ihv hs).mono (hr.grows hs₂)) (ihr hs₂)
  | noMembers => exact .noMembers
  | member hv hr ihv ihr =>
      have hs₂ := hv.sound hs
      exact .member ((ihv hs).mono (hr.grows hs₂)) (ihr hs₂)
  | link hr ht hv => exact .link hr ht (leads_of_verdict hv)
  | inlined hr ht _ hn _ ih => exact .inlined hr ht hn (ih hs.atPlace.withShelf)
  | @hoisted _ _ _ _ _ target wanted name _ _ _ s _ hr ht hv hw _ h ih =>
      have hfree : name ∉ s.taken := hw ▸ Walk.freeName_notMem s.taken wanted
      have hgrows := h.grows (hs.withName hfree).withShelf
      -- the schema is there when the link is written, so this is no home that waits for one
      refine .link hr ht (.named (verdict_eq_hoist hv).1 (hgrows.names ?_) ?_)
      · exact List.lookup_cons_self
      · rw [Progress.lookup_withSchema, if_pos rfl]
        rintro ⟨_, hnone⟩
        simp at hnone

/-- A walk takes in no component schema under a name that was taken before. -/
theorem Runs.hoisted_lookup {base : Url} {path : Path} {position : Position} {part part' : Part}
    (h : Runs docs rootUrl base path position part s part' s') (hs : s.Sound) {taken : String}
    (ht : taken ∈ s.taken) : s'.hoisted.lookup taken = s.hoisted.lookup taken := by
  induction h with
  | scalar | noItems | noMembers | link => rfl
  | array _ ih => exact ih hs ht
  | object _ _ ih => exact ih hs ht
  | item hv _ ihv ihr | member hv _ ihv ihr =>
      rw [ihr (hv.sound hs) ((hv.grows hs).taken ht), ihv hs ht]
  | inlined _ _ _ _ _ ih => exact ih hs.atPlace.withShelf ht
  | @hoisted _ _ _ _ _ target wanted name _ _ _ s _ _ _ _ hw _ _ ih =>
      have hfree : name ∉ s.taken := hw ▸ Walk.freeName_notMem s.taken wanted
      rw [Progress.lookup_withSchema, if_neg]
      · exact ih (hs.withName hfree).withShelf (List.mem_cons_of_mem _ ht)
      · rintro rfl
        exact hfree ht

/-- A target that was just given a name is not hoisted under it by the walk of what it designates. -/
theorem Runs.lookup_hoisted_of_free {base target : Url} {path : Path} {position : Position}
    {part part' : Part} {name : String} {shelf : Shelf}
    (h : Runs docs rootUrl base path position part
      ((s.withName target name).withShelf shelf) part' s')
    (hs : s.Sound) (hfree : name ∉ s.taken) : s'.hoisted.lookup name = none := by
  rw [h.hoisted_lookup (hs.withName hfree).withShelf List.mem_cons_self]
  cases hl : s.hoisted.lookup name with
  | none => exact hl
  | some found => exact absurd (hs.hoisted hl) hfree

end

/-! ## Reading images -/

section

variable {docs : Library} {rootUrl base : Url} {s : Progress} {path : Path}

theorem Image.items_getElem? {start : Nat} {items items' : List Json}
    (h : Image docs rootUrl s base path (.items start items) (.items start items')) :
    items'.length = items.length ∧ ∀ {index item}, items[index]? = some item →
      ∃ item', items'[index]? = some item' ∧
        Image docs rootUrl s base (path ++ [.item (start + index)]) (.value item) (.value item') := by
  induction items generalizing start items' with
  | nil =>
      cases h
      exact ⟨rfl, fun hi => by cases hi⟩
  | cons first rest ih =>
      cases h with
      | item hv hr =>
          obtain ⟨hlength, hrest⟩ := ih hr
          refine ⟨by rw [List.length_cons, List.length_cons, hlength], fun {index item} hi => ?_⟩
          cases index with
          | zero =>
              cases hi
              exact ⟨_, rfl, hv⟩
          | succ index =>
              obtain ⟨item', hi', himage⟩ := hrest hi
              rw [Nat.add_right_comm] at himage
              exact ⟨item', hi', himage⟩

theorem Image.members_lookup {members members' : Members}
    (h : Image docs rootUrl s base path (.members members) (.members members')) :
    members'.names = members.names ∧ ∀ {name value}, members.lookup name = some value →
      ∃ value', members'.lookup name = some value' ∧
        Image docs rootUrl s base (path ++ [.member name]) (.value value) (.value value') := by
  induction members generalizing members' with
  | nil =>
      cases h
      exact ⟨rfl, fun hl => by cases hl⟩
  | cons entry rest ih =>
      cases h with
      | member hv hr =>
          obtain ⟨hnames, hrest⟩ := ih hr
          refine ⟨congrArg (_ :: ·) hnames, fun {name value} hl => ?_⟩
          rw [List.lookup_cons] at hl
          split at hl
          · next heq =>
              cases hl
              rw [beq_iff_eq] at heq
              subst heq
              exact ⟨_, List.lookup_cons_self, hv⟩
          · next hne =>
              obtain ⟨value', hl', himage⟩ := hrest hl
              exact ⟨value', by rw [List.lookup_cons, hne, hl'], himage⟩

/-- One step below a value that is no Reference Object leads to the image of what is there. -/
theorem Image.step? {value value' child : Json} {step : Step}
    (h : Image docs rootUrl s base path (.value value) (.value value'))
    (hr : value.reference? = none) (hc : value.step? step = some child) :
    ∃ child', value'.step? step = some child' ∧
      Image docs rootUrl s base (path ++ [step]) (.value child) (.value child') := by
  cases h with
  | scalar h => cases value <;> cases step <;> first | cases hc | cases h
  | array h =>
      cases step with
      | member name => cases hc
      | item index =>
          obtain ⟨child', hc', himage⟩ := h.items_getElem?.2 hc
          rw [Nat.zero_add] at himage
          exact ⟨child', hc', himage⟩
  | object _ h =>
      cases step with
      | member name => exact h.members_lookup.2 hc
      | item index => cases hc
  | link hr' => cases hr'.symm.trans hr
  | inlined hr' => cases hr'.symm.trans hr

/-- The image of a node below no Reference Object stands at the same steps below the image. -/
theorem Image.at? {value value' node : Json} {rest : Path}
    (h : Image docs rootUrl s base path (.value value) (.value value'))
    (hr : value.AllAbove (·.reference? = none) rest)
    (hn : value.at? rest = some node) :
    ∃ node', value'.at? rest = some node' ∧
      Image docs rootUrl s base (path ++ rest) (.value node) (.value node') := by
  -- on the steps; no value that one is taken from is a Reference Object
  induction rest generalizing path value value' with
  | nil =>
      cases hn
      rw [List.append_nil]
      exact ⟨value', rfl, h⟩
  | cons step rest ih =>
      obtain ⟨child, hc, hn⟩ := Option.bind_eq_some_iff.mp hn
      obtain ⟨child', hc', himage⟩ := h.step? hr.head hc
      obtain ⟨node', hn', hnode⟩ := ih himage (hr.tail hc) hn
      rw [List.append_assoc, List.singleton_append] at hnode
      exact ⟨node', by rw [Json.at?_cons, hc']; exact hn', hnode⟩

end

/-! ## Trees all of whose names meet a condition -/

/-- A condition on steps that every index meets, and both names on the way to the component schemas. -/
structure Step.Lenient (P : Step → Prop) : Prop where
  item : ∀ index, P (.item index)
  components : P (.member "components")
  schemas : P (.member "schemas")

theorem Step.lenient_true : Step.Lenient fun _ => True := ⟨fun _ => trivial, trivial, trivial⟩

theorem Step.lenient_readBack : Step.Lenient Step.ReadBack := ⟨fun _ => trivial, rfl, rfl⟩

section

variable {P : Step → Prop}

theorem Step.Lenient.homePath (h : Step.Lenient P) {name : String} (hn : P (.member name)) :
    ∀ step ∈ homePath name, P step := by
  intro step hm
  simp only [OpenApi.homePath, List.mem_cons, List.not_mem_nil, or_false] at hm
  rcases hm with rfl | rfl | rfl
  · exact h.components
  · exact h.schemas
  · exact hn

theorem forall_mem_concat {path : Path} {last : Step} (hpath : ∀ step ∈ path, P step)
    (hlast : P last) : ∀ step ∈ path ++ [last], P step := by
  intro step hm
  rcases List.mem_append.mp hm with hm | hm
  · exact hpath step hm
  · rwa [List.mem_singleton.mp hm]

/-- The names of an object are distinct and meet a condition. -/
structure TidyNames (P : Step → Prop) (names : List String) : Prop where
  nodup : names.Nodup
  meets : ∀ name ∈ names, P (.member name)

/-- The names of every object of a tree are tidy. -/
def Json.Tidy (P : Step → Prop) (tree : Json) : Prop :=
  ∀ path members, tree.at? path = some (.object members) → TidyNames P (Members.names members)

/-- The names of every object in a part are tidy. -/
def Part.Tidy (P : Step → Prop) : Part → Prop
  | .value tree => tree.Tidy P
  | .items _ rest => ∀ item ∈ rest, item.Tidy P
  | .members rest => TidyNames P rest.names ∧ ∀ entry ∈ rest, entry.2.Tidy P

/-- A tree is tidy if no object repeats a name and every name meets the condition. -/
theorem Json.tidy_of_proper {tree : Json} (ht : tree.proper = true)
    (h : ∀ {path members}, tree.at? path = some (.object members) →
      ∀ name ∈ Members.names members, P (.member name)) : tree.Tidy P :=
  fun _ _ ha => ⟨(Json.proper_object_iff.mp (Json.proper_of_at? ht ha)).1, h ha⟩

theorem Json.Tidy.at? {tree node : Json} {path : Path} (h : tree.Tidy P)
    (hn : tree.at? path = some node) : node.Tidy P := by
  intro rest members hm
  apply h (path ++ rest) members
  rw [Json.at?_append, hn]
  exact hm

theorem Json.Tidy.items {items : List Json} {start : Nat} (h : (Json.array items).Tidy P) :
    (Part.items start items).Tidy P := by
  intro item hm
  obtain ⟨index, hi⟩ := List.mem_iff_getElem?.mp hm
  exact h.at? (Json.at?_item (Json.at?_nil _) hi)

theorem Json.Tidy.members {members : Members} (h : (Json.object members).Tidy P) :
    (Part.members members).Tidy P := by
  have hnames := h [] members rfl
  refine ⟨hnames, fun entry hm => ?_⟩
  exact h.at? (Json.at?_member (Json.at?_nil _) (lookup_of_mem hnames.nodup hm))

theorem TidyNames.tail {name : String} {names : List String} (h : TidyNames P (name :: names)) :
    TidyNames P names :=
  ⟨(List.nodup_cons.mp h.nodup).2, fun name hm => h.meets name (List.mem_cons_of_mem _ hm)⟩

end

/-! ## Where targets stand -/

/-- The node at the end of a path through a part. -/
def Part.at? : Part → Path → Option Json
  | .value tree, path => tree.at? path
  | .items start rest, .item index :: below =>
    if start ≤ index then (rest[index - start]?).bind (·.at? below) else none
  | .members rest, .member name :: below => (rest.lookup name).bind (·.at? below)
  | _, _ => none

/-- The nodes of a part are those of another, some steps down. -/
def Part.Within (below : Path) (part whole : Part) : Prop :=
  ∀ {rest value}, part.at? rest = some value → whole.at? (below ++ rest) = some value

namespace Part

theorem within_array (items : List Json) :
    Within [] (.items 0 items) (.value (.array items)) := by
  intro rest value h
  cases rest with
  | nil => cases h
  | cons step rest =>
      cases step with
      | member name => cases h
      | item index => exact h

theorem within_object (members : Members) :
    Within [] (.members members) (.value (.object members)) := by
  intro rest value h
  cases rest with
  | nil => cases h
  | cons step rest =>
      cases step with
      | member name => exact h
      | item index => cases h

theorem within_item_head (index : Nat) (item : Json) (rest : List Json) :
    Within [.item index] (.value item) (.items index (item :: rest)) := by
  intro below value h
  show (if index ≤ index then _ else _) = _
  rw [if_pos (Nat.le_refl _), Nat.sub_self]
  exact h

theorem within_item_tail (index : Nat) (item : Json) (rest : List Json) :
    Within [] (.items (index + 1) rest) (.items index (item :: rest)) := by
  intro below value h
  cases below with
  | nil => cases h
  | cons step below =>
      cases step with
      | member name => cases h
      | item found =>
          rw [at?] at h
          split at h
          · next hle =>
              show (if index ≤ found then _ else _) = _
              obtain ⟨k, rfl⟩ : ∃ k, found = index + 1 + k := ⟨found - (index + 1), by omega⟩
              rw [Nat.add_sub_cancel_left] at h
              rw [if_pos (by omega), show index + 1 + k - index = k + 1 by omega,
                List.getElem?_cons_succ]
              exact h
          · simp at h

theorem within_member_head (name : String) (value : Json) (rest : Members) :
    Within [.member name] (.value value) (.members ((name, value) :: rest)) := by
  intro below found h
  show (List.lookup name ((name, value) :: rest)).bind _ = _
  rw [List.lookup_cons_self]
  exact h

theorem within_member_tail {name : String} {rest : Members} (value : Json)
    (hn : name ∉ rest.names) : Within [] (.members rest) (.members ((name, value) :: rest)) := by
  intro below found h
  cases below with
  | nil => cases h
  | cons step below =>
      cases step with
      | item index => cases h
      | member other =>
          obtain ⟨child, hl, _⟩ := Option.bind_eq_some_iff.mp h
          have hne : (other == name) = false := by
            rw [beq_eq_false_iff_ne]
            rintro rfl
            exact hn (List.mem_map_of_mem (f := Prod.fst) (mem_of_lookup hl))
          show (List.lookup other ((name, value) :: rest)).bind _ = _
          rw [List.lookup_cons, hne]
          exact h

end Part

/-- A value stands at a path of what a walk made: below the path of the part that was walked, or in a
component schema that was taken in. -/
def Stands (hoisted : Members) (part : Part) (path place : Path) (value : Json) : Prop :=
  (∃ rest, place = path ++ rest ∧ part.at? rest = some value) ∨
    ∃ name rest schema, place = homePath name ++ rest ∧ hoisted.lookup name = some schema ∧
      schema.at? rest = some value

section

variable {hoisted hoisted' : Members} {part whole : Part} {path below place : Path} {value : Json}

/-- What stands in a part stands in the whole. -/
theorem Stands.within (h : Stands hoisted part (path ++ below) place value)
    (hw : part.Within below whole)
    (hg : ∀ {name schema}, hoisted.lookup name = some schema → hoisted'.lookup name = some schema) :
    Stands hoisted' whole path place value := by
  rcases h with ⟨rest, rfl, ha⟩ | ⟨name, rest, schema, rfl, hl, ha⟩
  · exact .inl ⟨below ++ rest, List.append_assoc _ _ _, hw ha⟩
  · exact .inr ⟨name, rest, schema, rfl, hg hl, ha⟩

theorem Stands.within_nil (h : Stands hoisted part path place value) (hw : part.Within [] whole)
    (hg : ∀ {name schema}, hoisted.lookup name = some schema → hoisted'.lookup name = some schema) :
    Stands hoisted' whole path place value := by
  rw [← List.append_nil path] at h
  exact h.within hw hg

/-- What stands in a component schema that was taken in stands there, whatever part was walked. -/
theorem Stands.of_schema {name : String} {schema : Json}
    (h : Stands hoisted (.value schema) (homePath name) place value)
    (hl : hoisted'.lookup name = some schema)
    (hg : ∀ {name schema}, hoisted.lookup name = some schema → hoisted'.lookup name = some schema) :
    Stands hoisted' part path place value := by
  rcases h with ⟨rest, rfl, ha⟩ | ⟨name, rest, schema, rfl, hl, ha⟩
  · exact .inr ⟨_, rest, schema, rfl, hl, ha⟩
  · exact .inr ⟨name, rest, schema, rfl, hg hl, ha⟩

end

/-- The image of the node of a target stands at a path. -/
def Landed (docs : Library) (rootUrl : Url) (s : Progress) (part : Part) (path : Path)
    (target : Url) (place : Path) : Prop :=
  ∃ node value, docs.node? target = some node ∧
    Image docs rootUrl s target.document place (.value node) (.value value) ∧
    Stands s.hoisted part path place value

/-- The targets that got a place or a name between two points of a walk have landed there, at the end of
steps that meet a condition. -/
structure Lands (docs : Library) (rootUrl : Url) (P : Step → Prop) (s s' : Progress) (part : Part)
    (path : Path) : Prop where
  places : ∀ {target pointer}, (target, pointer) ∈ s'.places → (target, pointer) ∈ s.places ∨
    ∃ place, pointer = .ofPath place ∧ (∀ step ∈ place, P step) ∧
      Landed docs rootUrl s' part path target place
  names : ∀ {target name}, s'.names.lookup target = some name →
    s.names.lookup target = some name ∨
      P (.member name) ∧ Landed docs rootUrl s' part path target (homePath name)

section

variable {P : Step → Prop} {docs : Library} {rootUrl : Url} {s s₁ s₂ s₃ s' : Progress} {part whole : Part}
  {path below : Path}

theorem Lands.refl (s : Progress) (part : Part) (path : Path) :
    Lands docs rootUrl P s s part path := ⟨.inl, .inl⟩

theorem Landed.mono {target : Url} {place : Path}
    (h : Landed docs rootUrl s part path target place) (hg : s.Grows s') :
    Landed docs rootUrl s' part path target place := by
  obtain ⟨node, value, hn, himage, hstands⟩ := h
  exact ⟨node, value, hn, himage.mono hg, hstands.within_nil (fun ha => ha) hg.hoisted⟩

theorem Lands.trans (h₁ : Lands docs rootUrl P s₁ s₂ part path)
    (h₂ : Lands docs rootUrl P s₂ s₃ part path) (hg : s₂.Grows s₃) :
    Lands docs rootUrl P s₁ s₃ part path where
  places hp := by
    rcases h₂.places hp with hp | hlanded
    · rcases h₁.places hp with hp | ⟨place, heq, hmeets, hlanded⟩
      · exact .inl hp
      · exact .inr ⟨place, heq, hmeets, hlanded.mono hg⟩
    · exact .inr hlanded
  names hn := by
    rcases h₂.names hn with hn | hlanded
    · rcases h₁.names hn with hn | ⟨hmeets, hlanded⟩
      · exact .inl hn
      · exact .inr ⟨hmeets, hlanded.mono hg⟩
    · exact .inr hlanded

theorem Landed.within {target : Url} {place : Path}
    (h : Landed docs rootUrl s part (path ++ below) target place) (hw : part.Within below whole) :
    Landed docs rootUrl s whole path target place := by
  obtain ⟨node, value, hn, himage, hstands⟩ := h
  exact ⟨node, value, hn, himage, hstands.within hw id⟩

theorem Lands.within (h : Lands docs rootUrl P s s' part (path ++ below) )
    (hw : part.Within below whole) : Lands docs rootUrl P s s' whole path where
  places hp := by
    rcases h.places hp with hp | ⟨place, heq, hmeets, hlanded⟩
    · exact .inl hp
    · exact .inr ⟨place, heq, hmeets, hlanded.within hw⟩
  names hn := by
    rcases h.names hn with hn | ⟨hmeets, hlanded⟩
    · exact .inl hn
    · exact .inr ⟨hmeets, hlanded.within hw⟩

/-- What landed in a component schema has landed, whatever part was walked. -/
theorem Landed.of_schema {target : Url} {place : Path} {name : String} {schema : Json}
    (h : Landed docs rootUrl s (.value schema) (homePath name) target place)
    (hg : s.Grows s') (hl : s'.hoisted.lookup name = some schema) :
    Landed docs rootUrl s' part path target place := by
  obtain ⟨node, value, hn, himage, hstands⟩ := h
  exact ⟨node, value, hn, himage.mono hg, hstands.of_schema hl hg.hoisted⟩

theorem Lands.within_nil (h : Lands docs rootUrl P s s' part path) (hw : part.Within [] whole) :
    Lands docs rootUrl P s s' whole path := by
  rw [← List.append_nil path] at h
  exact h.within hw

/-- A target that is taken in on the spot lands there. -/
theorem Lands.of_inlined {target : Url} {node value : Json} {shelf : Shelf}
    (h : Lands docs rootUrl P ((s.atPlace target (.ofPath path)).withShelf shelf) s'
      (.value value) path)
    (hpath : ∀ step ∈ path, P step) (hn : docs.node? target = some node)
    (himage : Image docs rootUrl s' target.document path (.value node) (.value value)) :
    Lands docs rootUrl P s s' (.value value) path where
  places {other pointer} hp := by
    rcases h.places hp with hp | hlanded
    · rcases List.mem_cons.mp hp with heq | hp
      · cases heq
        have hstands : Stands s'.hoisted (.value value) path path value :=
          .inl ⟨[], (List.append_nil path).symm, rfl⟩
        exact .inr ⟨path, rfl, hpath, node, value, hn, himage, hstands⟩
      · exact .inl hp
    · exact .inr hlanded
  names := h.names

/-- A target that is hoisted lands under its name, and what was met in it has landed as well. -/
theorem Lands.of_hoisted {target : Url} {node schema : Json} {name : String} {shelf : Shelf}
    (h : Lands docs rootUrl P ((s.withName target name).withShelf shelf) s' (.value schema)
      (homePath name))
    (hfree : s'.hoisted.lookup name = none) (hname : P (.member name))
    (hn : docs.node? target = some node)
    (himage : Image docs rootUrl s' target.document (homePath name) (.value node) (.value schema)) :
    Lands docs rootUrl P s (s'.withSchema name schema) part path := by
  have hg : s'.Grows (s'.withSchema name schema) := .addSchema hfree
  have hl : (s'.withSchema name schema).hoisted.lookup name = some schema := by
    rw [Progress.lookup_withSchema, if_pos rfl]
  refine ⟨fun hp => ?_, fun {other found} hnamed => ?_⟩
  · rcases h.places hp with hp | ⟨place, heq, hmeets, hlanded⟩
    · exact .inl hp
    · exact .inr ⟨place, heq, hmeets, hlanded.of_schema hg hl⟩
  · rcases h.names hnamed with hnamed | ⟨hmeets', hlanded⟩
    · change (s.withName target name).names.lookup other = some found at hnamed
      rw [Progress.lookup_withName] at hnamed
      split at hnamed
      · next heq =>
          cases hnamed
          subst heq
          have hstands :
              Stands (s'.withSchema name schema).hoisted part path (homePath name) schema :=
            .inr ⟨name, [], schema, rfl, hl, rfl⟩
          exact .inr ⟨hname, node, schema, hn, himage.mono hg, hstands⟩
      · exact .inl hnamed
    · exact .inr ⟨hmeets', hlanded.of_schema hg hl⟩

/-- When a walk is over, the image of every target that it gave a place or a name stands there. If the
names in the documents and those of what was hoisted meet a condition, all steps to there do. -/
theorem Runs.lands (hP : Step.Lenient P) {base : Url} {position : Position} {part' : Part}
    (h : Runs docs rootUrl base path position part s part' s') (hs : s.Sound)
    (htidy : part.Tidy P) (hdocs : ∀ {target node}, docs.node? target = some node → node.Tidy P)
    (hpath : ∀ step ∈ path, P step)
    (hnames : ∀ {name schema}, s'.hoisted.lookup name = some schema → P (.member name)) :
    Lands docs rootUrl P s s' part' path := by
  induction h with
  | scalar | noItems | noMembers | link => exact .refl _ _ _
  | array h ih => exact (ih hs htidy.items hpath hnames).within_nil (Part.within_array _)
  | object hr h ih => exact (ih hs htidy.members hpath hnames).within_nil (Part.within_object _)
  | @item _ path _ index item _ rest _ _ _ _ hv hr ihv ihr =>
      have hs₂ := hv.sound hs
      have hg := hr.grows hs₂
      have hitem : ∀ step ∈ path ++ [.item index], P step := forall_mem_concat hpath (hP.item index)
      have hhead := ihv hs (htidy item List.mem_cons_self) hitem fun hl => hnames (hg.hoisted hl)
      have htail := ihr hs₂ (fun item hm => htidy item (List.mem_cons_of_mem _ hm)) hpath hnames
      exact (hhead.within (Part.within_item_head index _ _)).trans
        (htail.within_nil (Part.within_item_tail index _ _)) hg
  | @member _ path _ name value _ rest _ _ _ _ hv hr ihv ihr =>
      have hs₂ := hv.sound hs
      have hg := hr.grows hs₂
      have hmember : ∀ step ∈ path ++ [.member name], P step :=
        forall_mem_concat hpath (htidy.1.meets name List.mem_cons_self)
      have hrest : (Part.members rest).Tidy P :=
        ⟨htidy.1.tail, fun entry hm => htidy.2 entry (List.mem_cons_of_mem _ hm)⟩
      have hhead := ihv hs (htidy.2 _ List.mem_cons_self) hmember fun hl => hnames (hg.hoisted hl)
      have htail := ihr hs₂ hrest hpath hnames
      -- the walk keeps the names, so no later member hides behind this one
      have hfresh : name ∉ Members.names rest := (List.nodup_cons.mp htidy.1.nodup).1
      rw [← ((hr.image hs₂).members_lookup).1] at hfresh
      exact (hhead.within (Part.within_member_head name _ _)).trans
        (htail.within_nil (Part.within_member_tail _ hfresh)) hg
  | @inlined _ path _ _ _ target _ _ shelf s _ hr ht hv hn h ih =>
      have hs₁ : ((s.atPlace target (.ofPath path)).withShelf shelf).Sound := hs.atPlace.withShelf
      exact (ih hs₁ (hdocs hn) hpath hnames).of_inlined hpath hn (h.image hs₁)
  | @hoisted _ _ _ _ _ target wanted name _ schema shelf s s₂ hr ht hv hw hn h ih =>
      have hfree : name ∉ s.taken := hw ▸ Walk.freeName_notMem s.taken wanted
      have hs₁ : ((s.withName target name).withShelf shelf).Sound := (hs.withName hfree).withShelf
      have hnone := h.lookup_hoisted_of_free hs hfree
      have hg : s₂.Grows (s₂.withSchema name schema) := .addSchema hnone
      have hl : (s₂.withSchema name schema).hoisted.lookup name = some schema := by
        rw [Progress.lookup_withSchema, if_pos rfl]
      have hname : P (.member name) := hnames hl
      have hbelow := ih hs₁ (hdocs hn) (hP.homePath hname) fun hl => hnames (hg.hoisted hl)
      exact hbelow.of_hoisted hnone hname hn (h.image hs₁)

/-- When the walk of a root is over, the image of every target that has a place or a name stands there.
-/
theorem Walked.lands (hP : Step.Lenient P) {root walked : Json}
    (hb : Walked docs rootUrl root walked s s') (hs : s.Sound)
    (htidy : ∀ {url tree}, docs url = some tree → tree.Tidy P)
    (hnames : ∀ {name schema}, s'.hoisted.lookup name = some schema → P (.member name)) :
    Lands docs rootUrl P s s' (.value walked) [] := by
  refine hb.runs.lands hP hs (htidy hb.found) (fun hn => ?_) (List.forall_mem_nil _) hnames
  obtain ⟨tree, hd, hresolve⟩ := Option.bind_eq_some_iff.mp hn
  obtain ⟨path, _, ha⟩ := Json.exists_locate?_of_resolve? hresolve
  exact (htidy hd).at? ha

end

end OpenApi
