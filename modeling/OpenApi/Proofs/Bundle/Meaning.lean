import OpenApi.Proofs.Bundle.Retention
import OpenApi.Proofs.Bundle.Regular
import OpenApi.Proofs.Bundle.Termination

/-!
# Bundling preserves meaning

A node of the documents is related to a node of the bundled document if an image of the one stands at
the other, and `bundle_isBisimulation` says that this relation is a bisimulation between the two
graphs.

A link may lead to the root as written, to a component schema, or to a place; in each case the image
of its target stands there when the walk is over. A reference whose target was taken in on the spot is
a step that only the documents take; the finite derivation of its image bounds how many of those can
follow each other.
-/

namespace OpenApi

/-! ## Tidy documents -/

/-- The names of regular documents are read back from a link. -/
theorem tidy_of_regular {docs : Library} {rootUrl : Url} {hoisted : Members}
    (h : docs.Regular rootUrl hoisted) {url : Url} {tree : Json} (hd : docs url = some tree) :
    tree.Tidy Step.ReadBack :=
  Json.tidy_of_proper (h.proper hd) fun ha name hm =>
    Text.hasEscape_of_notMem (h.keys hd ha name hm).2

/-! ## Images of values that are no references -/

section

variable {docs : Library} {rootUrl base : Url} {s : Progress} {path : Path}

/-- What has become a text is a text, or a reference whose chain ends at it. -/
theorem Image.ends_string {node : Json} {text : String} {tree : Json} {place : Path}
    (h : Image docs rootUrl s base path (.value node) (.value (.string text)))
    (hd : docs base = some tree) (hn : tree.at? place = some node) :
    ∃ m, (sourceGraph docs).Ends (base, place) m ∧
      (sourceGraph docs).value? m = some (.string text) := by
  -- on the derivation: a target that was taken in on the spot is one link of the chain
  generalize hp : Part.value node = part at h
  generalize hp' : Part.value (.string text) = part' at h
  induction h generalizing node tree place with
  | scalar hs =>
      cases hp
      cases hp'
      have hv := sourceGraph_value? hd hn
      exact ⟨_, ⟨0, _, rfl, hv, rfl⟩, hv⟩
  | link hr ht hl =>
      cases hp
      obtain ⟨members, rfl, _⟩ := Json.exists_members_of_reference? hr
      cases hp'
  | inlined hr ht hn' _ ih =>
      cases hp
      cases hp'
      obtain ⟨tree', place', hsite, hd', ha'⟩ := exists_site?_of_node? hn'
      obtain ⟨m, ⟨count, value, hf, hv, hr'⟩, hm⟩ := ih hd' ha' rfl rfl
      refine ⟨m, ⟨count + 1, value, ?_, hv, hr'⟩, hm⟩
      rw [Graph.follow?, sourceGraph_next? hd hn hr ht, hsite]
      exact hf
  | array | object => cases hp'
  | noItems | item | noMembers | member => cases hp

theorem Image.eq_string {node : Json} {text : String}
    (h : Image docs rootUrl s base path (.value node) (.value (.string text)))
    (hr : node.reference? = none) : node = .string text := by
  generalize hv : Json.string text = value at h
  cases h with
  | scalar => rfl
  | array | object => simp at hv
  | link hr' => cases hr'.symm.trans hr
  | inlined hr' => cases hr'.symm.trans hr

/-- The image of a value that is no reference is none, unless a member `$ref` became a text. -/
theorem Image.reference?_eq_none {node value : Json} {tree : Json} {place : Path}
    {hoisted : Members} (hu : docs.Undisguised hoisted)
    (h : Image docs rootUrl s base path (.value node) (.value value))
    (hd : docs base = some tree) (hn : tree.at? place = some node)
    (hr : node.reference? = none) : value.reference? = none := by
  cases h with
  | scalar => exact hr
  | array => rfl
  | @object _ _ members members' _ h =>
      obtain ⟨hnames, hlookup⟩ := h.members_lookup
      cases hl' : members'.lookup "$ref" with
      | none =>
          show (members'.lookup "$ref").bind _ = none
          rw [hl']
          rfl
      | some inner' =>
          have hmem : "$ref" ∈ Members.names members := hnames ▸ Members.mem_names_of_lookup hl'
          obtain ⟨inner, hl⟩ := Members.exists_lookup_of_mem_names hmem
          obtain ⟨found, hfound, himage⟩ := hlookup hl
          cases hl'.symm.trans hfound
          show (members'.lookup "$ref").bind _ = none
          rw [hl', Option.bind_some]
          cases inner' with
          | string text =>
              have hat := Json.at?_member hn hl
              obtain ⟨m, hends, hm⟩ := himage.ends_string hd hat
              cases hri : inner.reference? with
              | some reference => exact absurd hm (hu.member hd hat hri hends)
              | none =>
                  -- then the text was there all along
                  rw [himage.eq_string hri] at hl
                  change (members.lookup "$ref").bind _ = none at hr
                  rw [hl] at hr
                  cases hr
          | _ => rfl
  | link hr' => cases hr'.symm.trans hr
  | inlined hr' => cases hr'.symm.trans hr

/-- Every step below the image of a value that is no reference was there before. -/
theorem Image.step?_of_image {value value' child' : Json} {step : Step}
    (h : Image docs rootUrl s base path (.value value) (.value value'))
    (hr : value.reference? = none) (hc : value'.step? step = some child') :
    ∃ child, value.step? step = some child ∧
      Image docs rootUrl s base (path ++ [step]) (.value child) (.value child') := by
  have hchild : ∃ child, value.step? step = some child := by
    cases h with
    | scalar => exact ⟨child', hc⟩
    | array h =>
        cases step with
        | member name => cases hc
        | item index =>
            have hlt := (List.getElem?_eq_some_iff.mp hc).1
            rw [h.items_getElem?.1] at hlt
            exact ⟨_, List.getElem?_eq_getElem hlt⟩
    | object _ h =>
        cases step with
        | member name =>
            have hmem := Members.mem_names_of_lookup hc
            rw [h.members_lookup.1] at hmem
            exact Members.exists_lookup_of_mem_names hmem
        | item index => cases hc
    | link hr' => cases hr'.symm.trans hr
    | inlined hr' => cases hr'.symm.trans hr
  obtain ⟨child, hchild⟩ := hchild
  obtain ⟨found, hfound, himage⟩ := h.step? hr hchild
  cases hc.symm.trans hfound
  exact ⟨child, hchild, himage⟩

end

/-! ## Where the parts of the root stand -/

section

variable {docs : Library} {url : Url} {document : Document} {root walked : Json}
  {start finish : Progress}

/-- The root of a bundling is an object and no reference. -/
theorem Bundled.root_eq_object (hb : Bundled docs url document root walked start finish)
    (hreg : docs.Regular url finish.hoisted) :
    (∃ members, root = .object members) ∧ root.reference? = none := by
  cases hr : root.reference? with
  | some text =>
      have hlone := hreg.lone hb.found (Json.at?_nil root) hr
      have hversion := hb.version
      rw [hlone] at hversion
      cases hversion
  | none =>
      refine ⟨?_, rfl⟩
      cases root with
      | object members => exact ⟨members, rfl⟩
      | _ =>
          have hversion := hb.version
          cases hversion

/-- The three objects on the way to the component schemas are no references in the root. -/
theorem Bundled.spare_of_root (hb : Bundled docs url document root walked start finish)
    (hreg : docs.Regular url finish.hoisted) {path : Path} {value : Json} (hp : path ∈ spare)
    (ha : root.at? path = some value) :
    (∃ members, value = .object members) ∧ value.reference? = none := by
  simp only [spare, List.mem_cons, List.not_mem_nil, or_false] at hp
  rcases hp with rfl | hp
  · cases ha
    exact hb.root_eq_object hreg
  · exact hreg.components hb.found hp ha

/-- The root, its components and its component schemas are not taken in. -/
theorem Bundled.ownSchemas (hb : Bundled docs url document root walked start finish)
    (hreg : docs.Regular url finish.hoisted) : docs.OwnSchemas url := by
  intro found path value hd hp ha text target hr
  cases hd.symm.trans hb.found
  cases hr.symm.trans (hb.spare_of_root hreg hp ha).2

/-! ## The relation -/

/-- An image of a node of the documents stands at a path of the bundled document. -/
def Represents (docs : Library) (url : Url) (finish : Progress) (walked : Json) (n : Url × Path)
    (path : Path) : Prop :=
  ∃ tree node value, docs n.1 = some tree ∧ tree.at? n.2 = some node ∧
    Image docs url finish n.1 path (.value node) (.value value) ∧
    Stands finish.hoisted (.value walked) [] path value

theorem Represents.of_landed {target : Url} {place : Path}
    (h : Landed docs url finish (.value walked) [] target place) :
    ∃ n, docs.site? target = some n ∧ Represents docs url finish walked n place := by
  obtain ⟨node, value, hn, himage, hstands⟩ := h
  obtain ⟨tree, path, hsite, hd, ha⟩ := exists_site?_of_node? hn
  exact ⟨_, hsite, tree, node, value, hd, ha, himage, hstands⟩

theorem Stands.step {hoisted : Members} {path : Path} {value child : Json} {step : Step}
    (h : Stands hoisted (.value walked) [] path value) (hc : value.step? step = some child) :
    Stands hoisted (.value walked) [] (path ++ [step]) child := by
  rcases h with ⟨rest, rfl, ha⟩ | ⟨name, rest, schema, rfl, hl, ha⟩
  · refine .inl ⟨path ++ [step], rfl, ?_⟩
    show walked.at? (path ++ [step]) = some child
    rw [Json.at?_concat, show walked.at? path = some value from ha]
    exact hc
  · refine .inr ⟨name, rest ++ [step], schema, List.append_assoc _ _ _, hl, ?_⟩
    rw [Json.at?_concat, ha]
    exact hc

/-- Below a node that is no reference, what it has is represented at the same steps. -/
theorem Represents.below {n : Url × Path} {tree node value child : Json} {path : Path} {step : Step}
    (hd : docs n.1 = some tree) (hn : tree.at? n.2 = some node)
    (himage : Image docs url finish n.1 path (.value node) (.value value))
    (hstands : Stands finish.hoisted (.value walked) [] path value)
    (hr : node.reference? = none) (hc : node.step? step = some child) :
    Represents docs url finish walked (n.1, n.2 ++ [step]) (path ++ [step]) := by
  obtain ⟨child', hc', himage'⟩ := himage.step? hr hc
  refine ⟨tree, child, child', hd, ?_, himage', hstands.step hc'⟩
  rw [Json.at?_concat, hn]
  exact hc

/-- Two nodes at rest hold alike values. -/
theorem Bundled.rests (hb : Bundled docs url document root walked start finish)
    (hs : start.Sound) (hreg : docs.Regular url finish.hoisted)
    (hu : docs.Undisguised finish.hoisted) {n : Url × Path} {tree node value : Json} {path : Path}
    (hd : docs n.1 = some tree) (hn : tree.at? n.2 = some node)
    (himage : Image docs url finish n.1 path (.value node) (.value value))
    (hstands : Stands finish.hoisted (.value walked) [] path value)
    (hr : node.reference? = none) :
    Rests (sourceGraph docs) (bundleGraph document.root) (fun path names => Addition names path)
      (Represents docs url finish walked) n path := by
  obtain ⟨value', ha', hwide⟩ := hb.at?_of_stands hs (hb.ownSchemas hreg) hstands
  have hr' := himage.reference?_eq_none hu hd hn hr
  have hbelow : ∀ step child, node.step? step = some child →
      Represents docs url finish walked (n.1, n.2 ++ [step]) (path ++ [step]) :=
    fun _ _ hc => .below hd hn himage hstands hr hc
  -- more members come up only where component schemas were added
  refine ⟨node, value', sourceGraph_value? hd hn, ha', hr, ?_, ?_⟩
  · rcases hwide with rfl | hw
    · exact hr'
    · exact hw.reference?_eq_none hu.hoisted hr'
  · cases himage with
    | scalar hscalar =>
        rcases hwide with rfl | hw
        · exact .scalar hscalar
        · cases hw
          cases hscalar
    | @array _ _ items items' h =>
        rcases hwide with rfl | hw
        · refine .array h.items_getElem?.1 ?_
          intro index hlt
          exact hbelow (.item index) _ (List.getElem?_eq_getElem hlt)
        · cases hw
    | @object _ _ members members' _ h =>
        have hnames := h.members_lookup.1
        have hchild : ∀ name ∈ Members.names members,
            Represents docs url finish walked (n.1, n.2 ++ [.member name])
              (path ++ [.member name]) := by
          intro name hm
          obtain ⟨child, hl⟩ := Members.exists_lookup_of_mem_names hm
          exact hbelow (.member name) child hl
        rcases hwide with rfl | hw
        · exact .object .nothing (hnames.trans (List.append_nil _).symm) hchild
        · cases hw with
          | object ha hn _ _ => exact .object (hnames ▸ ha) (hnames ▸ hn) hchild
    | link href => cases href.symm.trans hr
    | inlined href => cases href.symm.trans hr

/-! ## Where links lead -/

/-- A node of the root below no Reference Object is represented at its own path. -/
theorem Bundled.represents_root (hb : Bundled docs url document root walked start finish)
    (hs : start.Sound) {path : Path} {node : Json} (ha : root.at? path = some node)
    (hr : root.AllAbove (·.reference? = none) path) :
    ∃ value, walked.at? path = some value ∧
      Image docs url finish url path (.value node) (.value value) :=
  (hb.runs.image hs).at? hr ha

theorem Bundled.readBack_alias (hb : Bundled docs url document root walked start finish)
    (hreg : docs.Regular url finish.hoisted) {target : Url} {name : String}
    (hn : start.names.lookup target = some name) : (Step.member name).ReadBack := by
  obtain ⟨declared, schema, _, hdeclared, hm, _⟩ := hb.alias_eq hn
  have hat := Json.componentSchemas?_eq_some_iff.mp hdeclared
  exact (tidy_of_regular hreg hb.found _ _ hat).meets name (List.mem_map_of_mem (f := Prod.fst) hm)

/-- The home of an alias holds the image of its target. -/
theorem Bundled.landed_alias (hb : Bundled docs url document root walked start finish)
    (hs : start.Sound) (hreg : docs.Regular url finish.hoisted) {target : Url} {name : String}
    (hn : start.names.lookup target = some name) :
    Landed docs url finish (.value walked) [] target (homePath name) := by
  obtain ⟨declared, schema, text, hdeclared, hm, hr, ht, he⟩ := hb.alias_eq hn
  obtain ⟨hhome, hunhoisted⟩ := hb.home_alias hs (hreg.proper hb.found) hdeclared hm
  obtain ⟨value, hv, himage⟩ := hb.represents_root hs hhome fun above step below holder hpath ha =>
    (hb.spare_of_root hreg (mem_spare_of_homePath hpath) ha).2
  have hlookup := (hb.runs.grows hs).names hn
  -- the verdict at the home of an alias is never a link
  cases himage with
  | scalar hscalar =>
      obtain ⟨members, rfl, _⟩ := Json.exists_members_of_reference? hr
      cases hscalar
  | array => cases hr
  | object hr' => cases hr'.symm.trans hr
  | link hr' ht' hl =>
      cases hr'.symm.trans hr
      cases ht'.symm.trans ht
      cases hl with
      | root h => exact absurd h he
      | named _ hn' hh =>
          cases hn'.symm.trans hlookup
          exact absurd ⟨rfl, hunhoisted⟩ hh
      | placed _ hn' => cases hn'.symm.trans hlookup
  | inlined hr' ht' hnode h =>
      cases hr'.symm.trans hr
      cases ht'.symm.trans ht
      exact ⟨_, value, hnode, h, .inl ⟨homePath name, rfl, hv⟩⟩

/-- No Reference Object stands above what a reference into the root designates. -/
theorem Bundled.no_reference_above (hb : Bundled docs url document root walked start finish)
    (hreg : docs.Regular url finish.hoisted) {path : Path} {node : Json}
    (ha : root.at? path = some node)
    (hapart : ∀ {above holder}, path = above ++ [.member "$ref"] → root.at? above = some holder →
      holder.reference? = none) :
    root.AllAbove (·.reference? = none) path := by
  intro above step below holder hpath hh
  cases hr : holder.reference? with
  | none => rfl
  | some text =>
      have hlone := hreg.lone hb.found hh hr
      rw [hpath, Json.at?_append, hh, Option.bind_some, hlone, Json.at?_cons] at ha
      obtain ⟨child, hc, hn⟩ := Option.bind_eq_some_iff.mp ha
      cases step with
      | item index => cases hc
      | member name =>
          have hl : [("$ref", Json.string text)].lookup name = some child := hc
          have heq := List.mem_singleton.mp (mem_of_lookup hl)
          rw [Prod.mk.injEq] at heq
          obtain ⟨rfl, rfl⟩ := heq
          cases below with
          | nil => exact hr.symm.trans (hapart hpath hh)
          | cons step rest =>
              rw [Json.at?_cons] at hn
              cases step <;> cases hn

/-- The walk of the root leaves the image of every target that has a place or a name there. -/
theorem Bundled.lands (hb : Bundled docs url document root walked start finish)
    (hs : start.Sound) (hreg : docs.Regular url finish.hoisted) :
    Lands docs url Step.ReadBack start finish (.value walked) [] :=
  hb.toWalked.lands Step.lenient_readBack hs (tidy_of_regular hreg) fun hl =>
    Text.hasEscape_of_notMem (hreg.names _ (Members.mem_names_of_lookup hl)).2

/-- A link to a path at which a target has landed leads to it, if the names on the path are read back. -/
theorem Bundled.represents_of_landed (hb : Bundled docs url document root walked start finish)
    (hs : start.Sound) (hreg : docs.Regular url finish.hoisted) {target : Url} {place : Path}
    (hp : ∀ step ∈ place, step.ReadBack)
    (hl : Landed docs url finish (.value walked) [] target place) :
    ∃ n path', docs.site? target = some n ∧
      document.root.locateLocal? ("#" ++ (Pointer.ofPath place).text) = some path' ∧
      Represents docs url finish walked n path' := by
  obtain ⟨n, hsite, hrep⟩ := Represents.of_landed hl
  obtain ⟨_, value, _, _, hstands⟩ := hl
  obtain ⟨value', hv', _⟩ := hb.at?_of_stands hs (hb.ownSchemas hreg) hstands
  refine ⟨n, place, hsite, Json.locateLocal?_link hp ?_ hv', hrep⟩
  -- the root has no member with an empty name
  rintro rfl
  rcases hstands with ⟨rest, heq, ha⟩ | ⟨name, rest, _, heq, _⟩
  · rw [List.nil_append] at heq
    subst heq
    obtain ⟨child', hc', _⟩ := Option.bind_eq_some_iff.mp ha
    obtain ⟨⟨members, rfl⟩, hr⟩ := hb.root_eq_object hreg
    obtain ⟨child, hc, _⟩ := (hb.runs.image hs).step?_of_image hr hc'
    exact (hreg.keys hb.found (Json.at?_nil _) "" (Members.mem_names_of_lookup hc)).1 rfl
  · simp [homePath] at heq

/-- A link leads to a node that represents its target. -/
theorem Bundled.represents_of_leads (hb : Bundled docs url document root walked start finish)
    (hs : start.Sound) (hreg : docs.Regular url finish.hoisted) {base target : Url}
    {tree node : Json} {path place : Path} {text new : String} (hd : docs base = some tree)
    (hn : tree.at? path = some node) (hr : node.reference? = some text)
    (ht : joinReference base text = .ok target) (hl : Leads url finish place target new) :
    ∃ n path', docs.site? target = some n ∧ document.root.locateLocal? new = some path' ∧
      Represents docs url finish walked n path' := by
  cases hl with
  | root h =>
      -- as written: no Reference Object stands above the node, so it kept its path
      have hroot : docs target.document = some root := h ▸ hb.found
      obtain ⟨found, hfound⟩ := hreg.rooted hd hn hr ht h hb.found
      obtain ⟨path', hlocate, ha⟩ := Json.exists_locate?_of_resolve? hfound
      have habove := hb.no_reference_above hreg ha fun {above holder} heq hh =>
        hreg.apart hd hn hr ht hroot (heq ▸ hlocate) hh
      obtain ⟨value, hv, himage⟩ := hb.represents_root hs ha habove
      have hstands : Stands finish.hoisted (.value walked) [] path' value := .inl ⟨path', rfl, hv⟩
      obtain ⟨value', hv', _⟩ := hb.at?_of_stands hs (hb.ownSchemas hreg) hstands
      refine ⟨(target.document, path'), path', ?_, ?_, root, found, value, hroot, ha, ?_, hstands⟩
      · rw [Library.site?, hroot, Option.bind_some, hlocate]
        rfl
      · rw [Json.locateLocal?_hash]
        exact Json.locate?_of_at? hlocate hv'
      · rw [h]
        exact himage
  | @named name he hname hh =>
      -- by name: that of an alias of the root, or one that the walk gave
      have hlanded : (Step.member name).ReadBack ∧
          Landed docs url finish (.value walked) [] target (homePath name) := by
        rcases (hb.lands hs hreg).names hname with hname | hlanded
        · exact ⟨hb.readBack_alias hreg hname, hb.landed_alias hs hreg hname⟩
        · exact hlanded
      have hleads := hb.represents_of_landed hs hreg (Step.lenient_readBack.homePath hlanded.1)
        hlanded.2
      rwa [ofPath_homePath] at hleads
  | @placed pointer he hn hp =>
      have hlands := hb.lands hs hreg
      rcases hlands.places hp with hp | ⟨place', rfl, hread, hlanded⟩
      · rw [hb.places] at hp
        exact absurd hp List.not_mem_nil
      · exact hb.represents_of_landed hs hreg hread hlanded

/-! ## The bisimulation -/

/-- From a represented node the chain comes to a node where both sides rest or follow a link. -/
theorem Bundled.settles (hb : Bundled docs url document root walked start finish)
    (hs : start.Sound) (hreg : docs.Regular url finish.hoisted)
    (hu : docs.Undisguised finish.hoisted) {n : Url × Path} {path : Path}
    (h : Represents docs url finish walked n path) :
    Settles (sourceGraph docs) (bundleGraph document.root) (fun path names => Addition names path)
      (Represents docs url finish walked) n path := by
  obtain ⟨base, place⟩ := n
  obtain ⟨tree, node, value, hd, hn, himage, hstands⟩ := h
  dsimp only at hd hn himage
  generalize hp : Part.value node = part at himage
  generalize hp' : Part.value value = part' at himage
  -- on the derivation of the image: only targets that were taken in on the spot nest
  induction himage generalizing tree node value place with
  | scalar hscalar =>
      cases hp
      cases hp'
      have hr := Json.reference?_of_isScalar hscalar
      exact ⟨0, _, rfl, .inl (hb.rests hs hreg hu hd hn (.scalar hscalar) hstands hr)⟩
  | array h =>
      cases hp
      cases hp'
      exact ⟨0, _, rfl, .inl (hb.rests hs hreg hu hd hn (.array h) hstands rfl)⟩
  | object hr h =>
      cases hp
      cases hp'
      exact ⟨0, _, rfl, .inl (hb.rests hs hreg hu hd hn (.object hr h) hstands hr)⟩
  | @link _ path node _ _ new hr ht hl =>
      cases hp
      cases hp'
      obtain ⟨m, path', hsite, hlocate, hrep⟩ :=
        hb.represents_of_leads hs hreg hd hn hr ht hl
      obtain ⟨value', ha', hwide⟩ := hb.at?_of_stands hs (hb.ownSchemas hreg) hstands
      have hlink := reference?_withReference new hr
      have hkept : value'.reference? = some new := by
        rcases hwide with rfl | hw
        · exact hlink
        · exact hw.reference?_eq_some hlink
      refine ⟨0, _, rfl, .inr ⟨m, path', ?_, ?_, hrep⟩⟩
      · rw [sourceGraph_next? hd hn hr ht, hsite]
      · rw [bundleGraph_next? ha' hkept, hlocate]
  | inlined hr ht hn' _ ih =>
      cases hp
      cases hp'
      obtain ⟨tree', place', hsite, hd', ha'⟩ := exists_site?_of_node? hn'
      obtain ⟨count, m, hf, hsettled⟩ := ih place' tree' _ _ hd' ha' hstands rfl rfl
      refine ⟨count + 1, m, ?_, hsettled⟩
      rw [Graph.follow?, sourceGraph_next? hd hn hr ht, hsite]
      exact hf
  | noItems | item | noMembers | member => simp at hp

end

/-- Bundling preserves meaning: there is a relation between the nodes of the documents and those of
the bundled document that relates the two roots, and whatever it relates, the chains of references
from there both go on for ever or come to alike values with related nodes below them. The bundled
objects have the names of the others and no more, but for component schemas at their place and for the
member on the way to these where it was missing. -/
theorem bundle_isBisimulation {source : Source} {fuel : Nat} {url : Url} {shelf : Shelf}
    {document : Document} {finish : Progress}
    (h : bundleAt source fuel url { shelf } = .ok document finish)
    (hreg : Library.Regular (available source shelf) url finish.hoisted)
    (hu : Library.Undisguised (available source shelf) finish.hoisted) :
    ∃ R : Url × Path → Path → Prop, R (url, []) [] ∧
      IsBisimulation (sourceGraph (available source shelf)) (bundleGraph document.root)
        (fun path names => Addition names path) R := by
  obtain ⟨root, walked, start, hb, hstart⟩ := bundle_stages rfl h
  have hs := sound_of_bundleStart (hreg.proper hb.found) hstart
  refine ⟨Represents (available source shelf) url finish walked, ?_,
    isBisimulation_of_settles fun hmn => hb.settles hs hreg hu hmn⟩
  exact ⟨root, root, walked, hb.found, rfl, hb.runs.image hs, .inl ⟨[], rfl, rfl⟩⟩

/-- A root and a document that is taken in by hoisting, on the spot, and through an alias. -/
def mixedShelf : Shelf :=
  [(⟨"mem", some {}, .segments ["root"], none, none⟩,
    .object [("openapi", .string "3.0.0"),
      ("components", .object [("schemas", .object [
        ("A", .object [("$ref", .string "e#/definitions/A")]),
        ("B", .object [("items", .object [("$ref", .string "e#/definitions/C")])])])]),
      ("x", .object [("$ref", .string "e#/y/z")]), ("y", .object [("$ref", .string "e#/y/z")])]),
   (⟨"mem", some {}, .segments ["e"], none, none⟩,
    .object [("definitions", .object [
        ("A", .object [("not", .object [("$ref", .string "#/definitions/C")])]),
        ("C", .object [("not", .object [("$ref", .string "root#/components/schemas/A")])])]),
      ("y", .object [("z", .array [.object [("$ref", .string "#/definitions/C")]])])])]

/-- The meaning of the mixed documents is preserved. -/
theorem exists_bisimulation_mixedShelf :
    ∃ document finish R, bundleAt .empty 10 ⟨"mem", some {}, .segments ["root"], none, none⟩
        { shelf := mixedShelf } = .ok document finish ∧
      R ((⟨"mem", some {}, .segments ["root"], none, none⟩ : Url), ([] : Path)) ([] : Path) ∧
      IsBisimulation (sourceGraph (available .empty mixedShelf)) (bundleGraph document.root)
        (fun path names => Addition names path) R := by
  have hrun : bundlesTo .empty 10 ⟨"mem", some {}, .segments ["root"], none, none⟩ mixedShelf
      (fun _ finish =>
        isRegular (available .empty mixedShelf) mixedShelf
            ⟨"mem", some {}, .segments ["root"], none, none⟩ finish.hoisted &&
          (finish.hoisted.lookup "$ref").isNone) = true := by decide +kernel
  have hplain : isUndisguised mixedShelf = true := by decide +kernel
  obtain ⟨document, finish, h, hcheck⟩ := exists_of_bundlesTo hrun
  obtain ⟨hreg, hnone⟩ := Bool.and_eq_true_iff.mp hcheck
  obtain ⟨R, hroot, hR⟩ := bundle_isBisimulation h
    (regular_of_isRegular mem_of_available_empty hreg)
    (undisguised_of_isUndisguised mem_of_available_empty hplain
      (Option.isNone_iff_eq_none.mp hnone))
  exact ⟨document, finish, R, h, hroot, hR⟩

/-- A member `$ref` that is a reference to the text of a reference, before another reference to that
text. -/
def disguisedShelf : Shelf :=
  [(⟨"mem", some {}, .segments ["r"], none, none⟩,
    .object [("openapi", .string "3.0.0"),
      ("x", .object [("$ref", .object [("$ref", .string "e#/s")])]),
      ("y", .object [("$ref", .string "e#/s")])]),
   (⟨"mem", some {}, .segments ["e"], none, none⟩, .object [("s", .string "#/x")])]

/-- A text that is taken in as a member `$ref` turns its object into a reference: the regular
documents of `disguisedShelf` have an object where the bundled document has a chain without end, so
no bisimulation relates the two roots. -/
theorem not_exists_bisimulation_disguisedShelf :
    ∃ document finish, bundleAt .empty 10 ⟨"mem", some {}, .segments ["r"], none, none⟩
        { shelf := disguisedShelf } = .ok document finish ∧
      Library.Regular (available .empty disguisedShelf) ⟨"mem", some {}, .segments ["r"], none, none⟩
        finish.hoisted ∧
      ¬∃ R, R ((⟨"mem", some {}, .segments ["r"], none, none⟩ : Url), ([] : Path)) ([] : Path) ∧
        IsBisimulation (sourceGraph (available .empty disguisedShelf)) (bundleGraph document.root)
          (fun path names => Addition names path) R := by
  obtain ⟨document, finish, h, hreg, hroot⟩ : ∃ document finish,
      bundleAt .empty 10 ⟨"mem", some {}, .segments ["r"], none, none⟩ { shelf := disguisedShelf }
          = .ok document finish ∧
        isRegular (available .empty disguisedShelf) disguisedShelf
          ⟨"mem", some {}, .segments ["r"], none, none⟩ finish.hoisted = true ∧
        document.root = .object [("openapi", .string "3.0.0"),
          ("x", .object [("$ref", .string "#/x")]),
          ("y", .object [("$ref", .string "#/x/$ref")])] := ⟨_, _, rfl, rfl, rfl⟩
  refine ⟨document, finish, h, regular_of_isRegular mem_of_available_empty hreg, ?_⟩
  rintro ⟨R, hR, hbisim⟩
  rw [hroot] at hbisim
  obtain ⟨n', hends, hrest⟩ := (hbisim _ _ hR).rests rfl rfl
  obtain rfl := Graph.eq_of_ends rfl rfl hends
  have hx := hrest.member rfl (List.mem_cons_of_mem "openapi" List.mem_cons_self)
  -- the object `x` rests, the bundled `x` leads to itself
  obtain ⟨_, hends', _⟩ := (hbisim _ _ hx).rests rfl rfl
  exact Graph.not_ends_of_loop rfl hends'

end OpenApi
