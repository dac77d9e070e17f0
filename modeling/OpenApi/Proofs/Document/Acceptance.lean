import Mathlib.Data.List.Forall2
import OpenApi.Document
import OpenApi.Proofs.Pointer.RoundTrip

/-!
# Self-contained trees are accepted, and no others

`Document.ofTree_exact` says which trees are accepted: those in which every object with a `$ref` text,
wherever it stands, designates a node. It also says what is reported of the others: the `$ref` of the
first object that designates none, in document order, an object before what it holds.

Both sides are said without the check. What a text designates is a relation between the text, the
steps that its decoded tokens spell, and the node at their end (`Json.Designates`); it is the node that
`resolveLocal?` finds (`Json.resolveLocal?_eq_some_iff`). Where an object stands is a path, and
`Json.Precedes` orders the paths into a tree. The check is a search through one list, in which the
references of a value follow each other as the value has them, so the first hit of the search is the
first place in that order (`Json.exists_isFirst`).
-/

namespace OpenApi

/-! ## Cutting a text and joining it again -/

namespace Text

theorem notMem_of_mem_splitAt {mark : Char} {text piece : List Char}
    (h : piece ∈ splitAt mark text) : mark ∉ piece := by
  induction text generalizing piece with
  | nil =>
      rw [splitAt, List.mem_singleton] at h
      rw [h]
      exact List.not_mem_nil
  | cons c rest ih =>
      rw [splitAt] at h
      split at h
      · rcases List.mem_cons.mp h with rfl | h
        · exact List.not_mem_nil
        · exact ih h
      · next hc =>
          split at h
          · next first pieces hsplit =>
              rcases List.mem_cons.mp h with rfl | h
              · exact List.not_mem_cons_of_ne_of_not_mem (Ne.symm hc)
                  (ih (hsplit ▸ List.mem_cons_self))
              · exact ih (hsplit ▸ List.mem_cons_of_mem _ h)
          · next hsplit => exact absurd hsplit (splitAt_ne_nil mark rest)

/-- A text that starts with the mark is what its pieces after that mark give, each behind a mark. -/
theorem flatMap_splitAt (mark : Char) (text : List Char) :
    (splitAt mark text).flatMap (mark :: ·) = mark :: text := by
  induction text with
  | nil => rfl
  | cons c rest ih =>
      rw [splitAt]
      split
      · next hc => rw [List.flatMap_cons, ih, hc, List.singleton_append]
      · split
        · next first pieces hsplit =>
            rw [hsplit, List.flatMap_cons, List.cons_append, List.cons.injEq] at ih
            rw [List.flatMap_cons, List.cons_append, List.cons_append, ih.2]
        · next hsplit => exact absurd hsplit (splitAt_ne_nil mark rest)

end Text

/-! ## What a text designates -/

/-- A pointer token spells a step when it is decoded: the member of that name, or the item of that
index. -/
inductive Step.SpelledBy (token : String) : Step → Prop
  | member : SpelledBy token (.member (Pointer.decodeToken token))
  | item {index : Nat} (h : Pointer.index? (Pointer.decodeToken token) = some index) :
      SpelledBy token (.item index)

/-- A reference text with an empty document part, and the tokens of its pointer. Three texts have no
tokens; any other has a slash before each token, and the slash alone is no empty token. -/
inductive Reference.Local : String → List String → Prop
  | whole {text : String} (h : text ∈ ["", "#", "#/"]) : Local text []
  | pointer {tokens : List String} (hnil : tokens ≠ []) (hempty : tokens ≠ [""])
      (hslash : ∀ token ∈ tokens, '/' ∉ token.toList) :
      Local ("#" ++ (Pointer.mk tokens).text) tokens

/-- The steps that the decoded pointer of a text spells lead from the root of a tree to a node. -/
def Json.Designates (tree : Json) (text : String) (node : Json) : Prop :=
  ∃ tokens path, Reference.Local text tokens ∧ List.Forall₂ Step.SpelledBy tokens path
    ∧ tree.at? path = some node

variable {text : String} {tokens : List String}

namespace Pointer

/-- What is read as a pointer is the text of one, or means the whole document. -/
theorem text_of_parse? {fragment : String}
    (h : parse? fragment = some ⟨tokens⟩) :
    (fragment ∈ ["", "/"] ∧ tokens = []) ∨
      (fragment = Pointer.text ⟨tokens⟩ ∧ tokens ≠ [] ∧ tokens ≠ [""]
        ∧ ∀ token ∈ tokens, '/' ∉ token.toList) := by
  rw [parse?] at h
  split at h
  · next hf =>
      cases h
      exact .inl ⟨List.mem_cons.mpr (.inl (String.toList_eq_nil_iff.mp hf)), rfl⟩
  · next hf =>
      cases h
      have hslash : fragment = "/" := String.toList_injective hf
      exact .inl ⟨by simp [hslash], rfl⟩
  · next rest hone hf =>
      cases h
      have hjoin := Text.flatMap_splitAt '/' rest
      refine .inr ⟨String.toList_injective ?_, ?_, ?_, ?_⟩
      · rw [hf, toList_text, List.flatMap_map, ← hjoin]
        simp only [String.toList_ofList]
      · rw [Ne, List.map_eq_nil_iff]
        exact Text.splitAt_ne_nil '/' rest
      · -- one empty piece is what a lone slash is cut into
        intro heq
        obtain ⟨piece, hpiece, hp⟩ := List.map_eq_singleton_iff.mp heq
        have hnil : piece = [] := String.ofList_eq_empty_iff.mp hp
        rw [hpiece, hnil] at hjoin
        exact hone (List.cons.inj hjoin).2.symm
      · intro token ht
        obtain ⟨piece, hm, rfl⟩ := List.mem_map.mp ht
        rw [String.toList_ofList]
        exact Text.notMem_of_mem_splitAt hm
  · cases h

end Pointer

theorem Reference.Local.parse (h : Reference.Local text tokens) :
    (Reference.parse text).isLocal = true
      ∧ Pointer.parse? ((Reference.parse text).fragment.getD "") = some ⟨tokens⟩ := by
  cases h with
  | whole h =>
      rw [List.mem_cons, List.mem_cons, List.mem_singleton] at h
      rcases h with rfl | rfl | rfl <;> exact ⟨rfl, rfl⟩
  | pointer hnil hempty hslash =>
      rw [Reference.parse_hash]
      exact ⟨rfl, Pointer.parse?_text hslash hempty⟩

theorem Reference.local_of_parse (hlocal : (Reference.parse text).isLocal = true)
    (h : Pointer.parse? ((Reference.parse text).fragment.getD "") = some ⟨tokens⟩) :
    Reference.Local text tokens := by
  rcases Reference.eq_hash_of_isLocal hlocal with rfl | ⟨fragment, rfl⟩
  · cases h
    exact .whole (by simp)
  · rw [Reference.parse_hash] at h
    rcases Pointer.text_of_parse? h with ⟨hm, rfl⟩ | ⟨rfl, hnil, hempty, hslash⟩
    · rw [List.mem_cons, List.mem_singleton] at hm
      rcases hm with rfl | rfl <;> exact .whole (by simp)
    · exact .pointer hnil hempty hslash

namespace Json

theorem child?_eq_some_iff {value child : Json} {token : String} :
    value.child? token = some child
      ↔ ∃ step, Step.SpelledBy token step ∧ value.step? step = some child := by
  cases value with
  | object members =>
      refine ⟨fun h => ⟨_, .member, h⟩, ?_⟩
      rintro ⟨_, hs, h⟩
      cases hs with
      | member => exact h
      | item => cases h
  | array items =>
      constructor
      · intro h
        obtain ⟨index, hi, hc⟩ := Option.bind_eq_some_iff.mp h
        exact ⟨.item index, .item hi, hc⟩
      · rintro ⟨_, hs, h⟩
        cases hs with
        | member => cases h
        | item hi => exact Option.bind_eq_some_iff.mpr ⟨_, hi, h⟩
  | _ =>
      refine ⟨nofun, ?_⟩
      rintro ⟨step, _, h⟩
      cases step <;> cases h

theorem follow?_eq_some_iff {value node : Json} :
    value.follow? tokens = some node
      ↔ ∃ path, List.Forall₂ Step.SpelledBy tokens path ∧ value.at? path = some node := by
  induction tokens generalizing value with
  | nil =>
      refine ⟨fun h => ⟨[], .nil, h⟩, ?_⟩
      rintro ⟨path, hs, h⟩
      cases hs
      exact h
  | cons token tokens ih =>
      constructor
      · intro h
        obtain ⟨child, hc, hn⟩ := Option.bind_eq_some_iff.mp h
        obtain ⟨step, hstep, hc⟩ := child?_eq_some_iff.mp hc
        obtain ⟨path, hs, ha⟩ := ih.mp hn
        exact ⟨step :: path, .cons hstep hs, Option.bind_eq_some_iff.mpr ⟨child, hc, ha⟩⟩
      · rintro ⟨path, hs, h⟩
        cases hs with
        | cons hstep hs =>
            obtain ⟨child, hc, ha⟩ := Option.bind_eq_some_iff.mp h
            exact Option.bind_eq_some_iff.mpr
              ⟨child, child?_eq_some_iff.mpr ⟨_, hstep, hc⟩, ih.mpr ⟨_, hs, ha⟩⟩

/-- The node that is found is the one that the text designates. -/
theorem resolveLocal?_eq_some_iff {tree node : Json} :
    tree.resolveLocal? text = some node ↔ tree.Designates text node := by
  rw [resolveLocal?]
  constructor
  · intro h
    split at h
    · next hlocal =>
        obtain ⟨⟨tokens⟩, hparse, hfollow⟩ := Option.bind_eq_some_iff.mp h
        obtain ⟨path, hs, ha⟩ := follow?_eq_some_iff.mp hfollow
        exact ⟨tokens, path, Reference.local_of_parse hlocal hparse, hs, ha⟩
    · cases h
  · rintro ⟨tokens, path, hlocal, hs, ha⟩
    obtain ⟨hlocal, hparse⟩ := hlocal.parse
    rw [if_pos hlocal]
    exact Option.bind_eq_some_iff.mpr ⟨_, hparse, follow?_eq_some_iff.mpr ⟨path, hs, ha⟩⟩

theorem isNone_resolveLocal?_iff {tree : Json} :
    (tree.resolveLocal? text).isNone = true ↔ ∀ node, ¬tree.Designates text node := by
  rw [Option.isNone_iff_eq_none, Option.eq_none_iff_forall_ne_some]
  exact forall_congr' fun node => not_congr resolveLocal?_eq_some_iff

/-! ## Document order -/

/-- One step from a value leads to a child that stands before the child of another step. -/
inductive Ahead : Json → Step → Step → Prop
  | member {members : Members} {name name' : String} (h : [name, name'].Sublist members.names) :
      Ahead (.object members) (.member name) (.member name')
  | item {items : List Json} {index index' : Nat} (h : index < index') :
      Ahead (.array items) (.item index) (.item index')

/-- One place in a value stands before another: what holds the other, or what the earlier child holds
where their paths part. -/
inductive Precedes : Json → Path → Path → Prop
  | above {value : Json} {step : Step} {rest : Path} : Precedes value [] (step :: rest)
  | beside {value : Json} {step step' : Step} {rest rest' : Path} (h : value.Ahead step step') :
      Precedes value (step :: rest) (step' :: rest')
  | inside {value child : Json} {step : Step} {rest rest' : Path}
      (hs : value.step? step = some child) (h : child.Precedes rest rest') :
      Precedes value (step :: rest) (step :: rest')

theorem notSublist_of_sublist {names : List String} (hn : names.Nodup) {a b : String}
    (h : [a, b].Sublist names) : ¬[b, a].Sublist names := by
  induction names with
  | nil => cases h
  | cons c rest ih =>
      obtain ⟨hc, hn⟩ := List.nodup_cons.mp hn
      intro h'
      cases h with
      | cons _ h =>
          cases h' with
          | cons _ h' => exact ih hn h h'
          | cons_cons _ h' => exact hc (h.subset (by simp))
      | cons_cons _ h =>
          cases h' with
          | cons _ h' => exact hc (h'.subset (by simp))
          | cons_cons _ h' => exact hc (h.subset (by simp))

theorem Ahead.asymm {value : Json} (hp : value.proper = true) {step step' : Step}
    (h : value.Ahead step step') : ¬value.Ahead step' step := by
  intro h'
  cases h with
  | member h =>
      cases h' with
      | member h' => exact notSublist_of_sublist (proper_object_iff.mp hp).1 h h'
  | item h =>
      cases h' with
      | item h' => omega

theorem proper_of_step? {value child : Json} {step : Step} (hp : value.proper = true)
    (h : value.step? step = some child) : child.proper = true :=
  @proper_of_at? value child [step] hp (by rw [at?_cons, h]; rfl)

theorem Precedes.asymm {value : Json} (hp : value.proper = true) {path path' : Path}
    (h : value.Precedes path path') : ¬value.Precedes path' path := by
  induction h with
  | above => nofun
  | beside h =>
      intro h'
      cases h' with
      | beside h' => exact h.asymm hp h'
      | inside _ _ => exact h.asymm hp h
  | inside hs h ih =>
      intro h'
      cases h' with
      | beside h' => exact h'.asymm hp h'
      | inside hs' h' =>
          cases hs.symm.trans hs'
          exact ih (proper_of_step? hp hs) h'

/-! ## The first reference of a kind -/

/-- A reference with a text stands at a path. -/
def RefersAt (value : Json) (path : Path) (text : String) : Prop :=
  ∃ node, value.at? path = some node ∧ node.reference? = some text

theorem RefersAt.mem_references {value : Json} {path : Path} (h : value.RefersAt path text) :
    text ∈ value.references := by
  obtain ⟨node, ha, hr⟩ := h
  exact references_subset_of_at? ha (mem_references_of_reference? hr)

/-- The first reference of a value whose text is of a kind. -/
structure IsFirst (value : Json) (kind : String → Bool) (path : Path) (text : String) : Prop where
  refers : value.RefersAt path text
  ofKind : kind text = true
  first : ∀ path' text', value.RefersAt path' text' → kind text' = true →
    path' = path ∨ value.Precedes path path'

variable {kind : String → Bool}

theorem IsFirst.unique {value : Json} (hp : value.proper = true) {path path' : Path}
    {text' : String} (h : value.IsFirst kind path text) (h' : value.IsFirst kind path' text') :
    path = path' ∧ text = text' := by
  have hpath : path = path' := by
    rcases h.first path' text' h'.refers h'.ofKind with heq | hbefore
    · exact heq.symm
    · rcases h'.first path text h.refers h.ofKind with heq | hafter
      · exact heq
      · exact absurd hafter (hbefore.asymm hp)
  subst hpath
  obtain ⟨node, ha, hr⟩ := h.refers
  obtain ⟨node', ha', hr'⟩ := h'.refers
  cases ha.symm.trans ha'
  exact ⟨rfl, Option.some.inj (hr.symm.trans hr')⟩

/-- A reference of the kind stands before all that is beside it. -/
theorem isFirst_nil {value : Json} (hr : value.reference? = some text) (hk : kind text = true) :
    value.IsFirst kind [] text where
  refers := ⟨value, rfl, hr⟩
  ofKind := hk
  first path' _ _ _ := by
    cases path' with
    | nil => exact .inl rfl
    | cons step rest => exact .inr .above

/-- The first one in a child is the first one of all if the value itself is none of the kind, nor
holds one in a child that does not stand later. -/
theorem IsFirst.inside {value child : Json} {step : Step} {path : Path}
    (h : child.IsFirst kind path text) (hs : value.step? step = some child)
    (hown : value.reference?.toList.find? kind = none)
    (hothers : ∀ step' child', value.step? step' = some child' →
      step' = step ∨ value.Ahead step step' ∨ child'.references.find? kind = none) :
    value.IsFirst kind (step :: path) text where
  refers := by
    obtain ⟨node, ha, hr⟩ := h.refers
    exact ⟨node, Option.bind_eq_some_iff.mpr ⟨child, hs, ha⟩, hr⟩
  ofKind := h.ofKind
  first path' text' hr hk := by
    obtain ⟨node, ha, hr⟩ := hr
    cases path' with
    | nil =>
        cases ha
        exact absurd hk (List.find?_eq_none.mp hown text' (Option.mem_toList.mpr hr))
    | cons step' rest' =>
        obtain ⟨child', hs', ha⟩ := Option.bind_eq_some_iff.mp ha
        rcases hothers step' child' hs' with rfl | hahead | hnone
        · cases hs.symm.trans hs'
          rcases h.first rest' text' ⟨node, ha, hr⟩ hk with rfl | hbefore
          · exact .inl rfl
          · exact .inr (.inside hs hbefore)
        · exact .inr (.beside hahead)
        · have hm : text' ∈ child'.references := RefersAt.mem_references ⟨node, ha, hr⟩
          exact absurd hk (List.find?_eq_none.mp hnone text' hm)

theorem itemReferences_eq_flatMap (items : List Json) :
    itemReferences items = items.flatMap references := by
  induction items with
  | nil => rfl
  | cons item rest ih => rw [itemReferences, List.flatMap_cons, ih]

theorem memberReferences_eq_flatMap (members : Members) :
    memberReferences members = members.flatMap fun entry => entry.2.references := by
  induction members with
  | nil => rfl
  | cons entry rest ih => rw [memberReferences, List.flatMap_cons, ih]

/-- Every other member stands before or after a given one. -/
theorem eq_or_ahead_or_mem_of_members {members before after : Members} {name : String}
    {child child' : Json} {step : Step} (hsplit : members = before ++ (name, child) :: after)
    (hs : (object members).step? step = some child') :
    step = .member name ∨ (object members).Ahead (.member name) step ∨
      child' ∈ before.map Prod.snd := by
  subst hsplit
  cases step with
  | item index => cases hs
  | member other =>
      have hm := mem_of_lookup hs
      rw [List.mem_append, List.mem_cons] at hm
      rcases hm with hm | heq | hm
      · exact .inr (.inr (List.mem_map_of_mem (f := Prod.snd) hm))
      · cases heq
        exact .inl rfl
      · have hlater : other ∈ after.map Prod.fst := List.mem_map_of_mem hm
        refine .inr (.inl (.member ?_))
        rw [Members.names, List.map_append, List.map_cons]
        refine List.Sublist.trans ?_ (List.sublist_append_right _ _)
        exact (List.singleton_sublist.mpr hlater).cons_cons name

/-- Every other item stands before or after a given one. -/
theorem eq_or_ahead_or_mem_of_items {items before after : List Json} {child child' : Json}
    {step : Step} (hsplit : items = before ++ child :: after)
    (hs : (array items).step? step = some child') :
    step = .item before.length ∨ (array items).Ahead (.item before.length) step ∨
      child' ∈ before := by
  subst hsplit
  cases step with
  | member name => cases hs
  | item index =>
      rcases Nat.lt_trichotomy index before.length with hlt | rfl | hlt
      · have hget : (before ++ child :: after)[index]? = some child' := hs
        rw [List.getElem?_append_left hlt] at hget
        exact .inr (.inr (List.mem_of_getElem? hget))
      · exact .inl rfl
      · exact .inr (.inl (.item hlt))

/-- The search through the references of a proper value hits the first one in document order. -/
theorem exists_isFirst {value : Json} (hp : value.proper = true)
    (h : value.references.find? kind = some text) : ∃ path, value.IsFirst kind path text := by
  match value with
  | .object members =>
      obtain ⟨hnodup, hmembers⟩ := proper_object_iff.mp hp
      rw [references, List.find?_append] at h
      cases hown : (object members).reference?.toList.find? kind with
      | some own =>
          rw [hown] at h
          cases h
          exact ⟨[], isFirst_nil (Option.mem_toList.mp (List.mem_of_find?_eq_some hown))
            (List.find?_some hown)⟩
      | none =>
          rw [hown, Option.none_or, memberReferences_eq_flatMap, List.find?_flatMap,
            List.findSome?_eq_some_iff] at h
          obtain ⟨before, ⟨name, child⟩, after, hsplit, hc, hbefore⟩ := h
          have hm : (name, child) ∈ members := by
            rw [hsplit]
            exact List.mem_append_right before List.mem_cons_self
          obtain ⟨path, hfirst⟩ := exists_isFirst (hmembers _ hm) hc
          refine ⟨.member name :: path,
            hfirst.inside (lookup_of_mem hnodup hm) hown fun step' child' hs' => ?_⟩
          rcases eq_or_ahead_or_mem_of_members hsplit hs' with heq | hahead | hm'
          · exact .inl heq
          · exact .inr (.inl hahead)
          · obtain ⟨entry, he, rfl⟩ := List.mem_map.mp hm'
            exact .inr (.inr (hbefore entry he))
  | .array items =>
      have hitems := properItems_iff.mp hp
      rw [references, itemReferences_eq_flatMap, List.find?_flatMap,
        List.findSome?_eq_some_iff] at h
      obtain ⟨before, child, after, hsplit, hc, hbefore⟩ := h
      have hm : child ∈ items := by
        rw [hsplit]
        exact List.mem_append_right before List.mem_cons_self
      have hitem : items[before.length]? = some child := by
        rw [hsplit, List.getElem?_append_right (Nat.le_refl _), Nat.sub_self]
        rfl
      obtain ⟨path, hfirst⟩ := exists_isFirst (hitems _ hm) hc
      refine ⟨.item before.length :: path, hfirst.inside hitem rfl fun step' child' hs' => ?_⟩
      rcases eq_or_ahead_or_mem_of_items hsplit hs' with heq | hahead | hm'
      · exact .inl heq
      · exact .inr (.inl hahead)
      · exact .inr (.inr (hbefore child' hm'))
  | .null | .bool _ | .number _ | .string _ => cases h
termination_by sizeOf value
decreasing_by
  · have hlt := List.sizeOf_lt_of_mem hm
    simp only [object.sizeOf_spec, Prod.mk.sizeOf_spec] at hlt ⊢
    omega
  · have hlt := List.sizeOf_lt_of_mem hm
    simp only [array.sizeOf_spec]
    omega

/-- A reference that designates no node stands at a path. -/
def Dangles (tree : Json) (path : Path) (text : String) : Prop :=
  tree.RefersAt path text ∧ ∀ node, ¬tree.Designates text node

theorem isFirst_iff {tree : Json} {path : Path} :
    tree.IsFirst (fun text => (tree.resolveLocal? text).isNone) path text
      ↔ tree.Dangles path text ∧ ∀ path' text', tree.Dangles path' text' →
          path' = path ∨ tree.Precedes path path' := by
  constructor
  · intro h
    refine ⟨⟨h.refers, isNone_resolveLocal?_iff.mp h.ofKind⟩, fun path' text' h' => ?_⟩
    exact h.first path' text' h'.1 (isNone_resolveLocal?_iff.mpr h'.2)
  · rintro ⟨h, hfirst⟩
    refine ⟨h.1, isNone_resolveLocal?_iff.mpr h.2, fun path' text' hr hk => ?_⟩
    exact hfirst path' text' ⟨hr, isNone_resolveLocal?_iff.mp hk⟩

end Json

/-! ## The check is exact -/

/-- Accepted are exactly the trees in which every reference, at whatever path, designates a node; the
document is then the tree under its URI. Any other tree is refused with the URI and the text of one
reference: of the one that designates no node and stands before all others that designate none. -/
theorem Document.ofTree_exact (uri : String) {root : Json} (hp : root.proper = true) :
    (ofTree uri root = .ok ⟨uri, root⟩
      ↔ ∀ path text, root.RefersAt path text → ∃ node, root.Designates text node)
    ∧ (∀ document, ofTree uri root = .ok document → document = ⟨uri, root⟩)
    ∧ ∀ error, ofTree uri root = .error error
      ↔ ∃ path text, root.Dangles path text
          ∧ (∀ path' text', root.Dangles path' text' → path' = path ∨ root.Precedes path path')
          ∧ error = .unresolvedReference text uri := by
  unfold ofTree
  cases hf : root.references.find? fun text => (root.resolveLocal? text).isNone with
  | none =>
      have hall : ∀ path text, root.RefersAt path text → ∃ node, root.Designates text node := by
        intro path text hr
        have hsome := List.find?_eq_none.mp hf text hr.mem_references
        rw [Json.isNone_resolveLocal?_iff] at hsome
        exact not_forall_not.mp hsome
      refine ⟨⟨fun _ => hall, fun _ => rfl⟩, fun document h => ?_, fun error => ⟨nofun, ?_⟩⟩
      · cases h
        rfl
      · rintro ⟨path, text, hd, -, -⟩
        obtain ⟨node, hn⟩ := hall path text hd.1
        exact absurd hn (hd.2 node)
  | some text =>
      obtain ⟨path, hfirst⟩ := Json.exists_isFirst hp hf
      obtain ⟨hd, hbefore⟩ := Json.isFirst_iff.mp hfirst
      refine ⟨⟨nofun, fun hall => ?_⟩, nofun, fun error => ⟨fun h => ?_, ?_⟩⟩
      · obtain ⟨node, hn⟩ := hall path text hd.1
        exact absurd hn (hd.2 node)
      · cases h
        exact ⟨path, text, hd, hbefore, rfl⟩
      · rintro ⟨path', text', hd', hbefore', rfl⟩
        obtain ⟨_, rfl⟩ := hfirst.unique hp (Json.isFirst_iff.mpr ⟨hd', hbefore'⟩)
        rfl

/-- Three references designate no node. The first of them stands in an array beside a `$ref` that is
good. -/
def strays : Json :=
  .object [("a", .object [("$ref", .string "#/b"),
      ("x", .array [.object [("$ref", .string "#/nowhere")], .object [("$ref", .string "f#/b")]])]),
    ("b", .object [("$ref", .string "#/a/x/2")])]

/-- The tree is refused with the text of the first one. -/
theorem Document.ofTree_strays :
    strays.proper = true ∧
      ofTree "mem:/r" strays = .error (.unresolvedReference "#/nowhere" "mem:/r") ∧
      ∃ path, strays.Dangles path "#/nowhere" ∧ ∀ path' text', strays.Dangles path' text' →
        path' = path ∨ strays.Precedes path path' := by
  have hp : strays.proper = true := rfl
  have herror : ofTree "mem:/r" strays = .error (.unresolvedReference "#/nowhere" "mem:/r") := rfl
  obtain ⟨_, _, hrefused⟩ := ofTree_exact "mem:/r" hp
  obtain ⟨path, text, hd, hfirst, heq⟩ := (hrefused _).mp herror
  cases heq
  exact ⟨hp, herror, path, hd, hfirst⟩

end OpenApi
