import Mathlib.Logic.Relation
import OpenApi.Proofs.Bundle.Retention

/-!
# The calls of a walk

A walk walks the parts of what it is given, and the targets that it takes in. `Call` is one of these
walks with all that goes into it and comes out of it, `Makes` tells which calls a call makes itself,
with one constructor for each recursive use of a walk, and `Meets` which calls it makes in all. A
reference is met where it is what a call is about; such a call makes no other call than the one that
takes in the target (`Makes.takesIn`).

`Meets.within` is the invariant of all calls of a walk: each of them runs, from consistent tables, and
what it leaves stands in what the whole walk leaves. `Runs.meets_along` says that no value is missed
that stands below no Reference Object, and in which position it is met.
-/

namespace OpenApi

/-- A walk: what it goes through, where that stands, and what comes of it. -/
structure Call where
  base : Url
  path : Path
  position : Position
  part : Part
  before : Progress
  result : Part
  after : Progress

namespace Call

/-- A call is a run. -/
def IsRun (docs : Library) (rootUrl : Url) (call : Call) : Prop :=
  Runs docs rootUrl call.base call.path call.position call.part call.before call.result call.after

/-- A call is about a reference to a target. -/
def Refers (call : Call) (target : Url) : Prop :=
  ∃ value text, call.part = .value value ∧ value.reference? = some text ∧
    joinReference call.base text = .ok target

end Call

/-- The calls that a call makes itself. -/
inductive Makes (docs : Library) (rootUrl : Url) : Call → Call → Prop where
  | array {base path position items items' s s'}
      (h : Runs docs rootUrl base path position.item (.items 0 items) s (.items 0 items') s') :
      Makes docs rootUrl
        ⟨base, path, position, .value (.array items), s, .value (.array items'), s'⟩
        ⟨base, path, position.item, .items 0 items, s, .items 0 items', s'⟩
  | object {base path position members members' s s'}
      (hr : (Json.object members).reference? = none)
      (h : Runs docs rootUrl base path position (.members members) s (.members members') s') :
      Makes docs rootUrl
        ⟨base, path, position, .value (.object members), s, .value (.object members'), s'⟩
        ⟨base, path, position, .members members, s, .members members', s'⟩
  | item {base path position index item item' rest rest' s₁ s₂ s₃}
      (hv : Runs docs rootUrl base (path ++ [.item index]) position (.value item) s₁
        (.value item') s₂)
      (hr : Runs docs rootUrl base path position (.items (index + 1) rest) s₂
        (.items (index + 1) rest') s₃) :
      Makes docs rootUrl
        ⟨base, path, position, .items index (item :: rest), s₁, .items index (item' :: rest'), s₃⟩
        ⟨base, path ++ [.item index], position, .value item, s₁, .value item', s₂⟩
  | items {base path position index item item' rest rest' s₁ s₂ s₃}
      (hv : Runs docs rootUrl base (path ++ [.item index]) position (.value item) s₁
        (.value item') s₂)
      (hr : Runs docs rootUrl base path position (.items (index + 1) rest) s₂
        (.items (index + 1) rest') s₃) :
      Makes docs rootUrl
        ⟨base, path, position, .items index (item :: rest), s₁, .items index (item' :: rest'), s₃⟩
        ⟨base, path, position, .items (index + 1) rest, s₂, .items (index + 1) rest', s₃⟩
  | member {base path position name value value' rest rest' s₁ s₂ s₃}
      (hv : Runs docs rootUrl base (path ++ [.member name])
        (position.child (.ofPath path) name) (.value value) s₁ (.value value') s₂)
      (hr : Runs docs rootUrl base path position (.members rest) s₂ (.members rest') s₃) :
      Makes docs rootUrl
        ⟨base, path, position, .members ((name, value) :: rest), s₁,
          .members ((name, value') :: rest'), s₃⟩
        ⟨base, path ++ [.member name], position.child (.ofPath path) name, .value value, s₁,
          .value value', s₂⟩
  | members {base path position name value value' rest rest' s₁ s₂ s₃}
      (hv : Runs docs rootUrl base (path ++ [.member name])
        (position.child (.ofPath path) name) (.value value) s₁ (.value value') s₂)
      (hr : Runs docs rootUrl base path position (.members rest) s₂ (.members rest') s₃) :
      Makes docs rootUrl
        ⟨base, path, position, .members ((name, value) :: rest), s₁,
          .members ((name, value') :: rest'), s₃⟩
        ⟨base, path, position, .members rest, s₂, .members rest', s₃⟩
  | inlined {base path position value text target node value' shelf s s'}
      (hr : value.reference? = some text) (ht : joinReference base text = .ok target)
      (hv : verdict rootUrl target (.ofPath path) position s = .inline)
      (hn : docs.node? target = some node)
      (h : Runs docs rootUrl target.document path (.ofPointer (.ofPath path)) (.value node)
        ((s.atPlace target (.ofPath path)).withShelf shelf) (.value value') s') :
      Makes docs rootUrl ⟨base, path, position, .value value, s, .value value', s'⟩
        ⟨target.document, path, .ofPointer (.ofPath path), .value node,
          (s.atPlace target (.ofPath path)).withShelf shelf, .value value', s'⟩
  | hoisted {base path position value text target wanted name node schema shelf s s'}
      (hr : value.reference? = some text) (ht : joinReference base text = .ok target)
      (hv : verdict rootUrl target (.ofPath path) position s = .hoist wanted)
      (hw : name = Walk.freeName s.taken wanted)
      (hn : docs.node? target = some node)
      (h : Runs docs rootUrl target.document (homePath name) .schema (.value node)
        ((s.withName target name).withShelf shelf) (.value schema) s') :
      Makes docs rootUrl
        ⟨base, path, position, .value value, s,
          .value (value.withReference ("#" ++ (Pointer.home name).text)), s'.withSchema name schema⟩
        ⟨target.document, homePath name, .schema, .value node,
          (s.withName target name).withShelf shelf, .value schema, s'⟩

/-- The calls that a call makes, itself or through others, and the call itself. -/
abbrev Meets (docs : Library) (rootUrl : Url) : Call → Call → Prop :=
  Relation.ReflTransGen (Makes docs rootUrl)

/-! ## Parts without repeated names -/

/-- No object in a part repeats a name. -/
def Part.Proper : Part → Prop
  | .value tree => tree.proper = true
  | .items _ rest => ∀ item ∈ rest, item.proper = true
  | .members rest => rest.names.Nodup ∧ ∀ entry ∈ rest, entry.2.proper = true

/-! ## What holds of every call -/

section

variable {docs : Library} {rootUrl : Url} {whole call made : Call}

/-- A call runs, from consistent tables and on a part without repeated names. -/
structure Call.Sane (docs : Library) (rootUrl : Url) (call : Call) : Prop where
  run : call.IsRun docs rootUrl
  sound : call.before.Sound
  proper : call.part.Proper

/-- What a call leaves stands in what another one leaves. -/
def Call.StandsIn (call whole : Call) : Prop :=
  ∀ {place value}, Stands call.after.hoisted call.result call.path place value →
    Stands whole.after.hoisted whole.result whole.path place value

theorem Makes.sane (h : Makes docs rootUrl call made) (hd : docs.Proper)
    (hc : call.Sane docs rootUrl) : made.Sane docs rootUrl := by
  obtain ⟨_, hs, hp⟩ := hc
  cases h with
  | array h => exact ⟨h, hs, Json.properItems_iff.mp hp⟩
  | object _ h => exact ⟨h, hs, Json.proper_object_iff.mp hp⟩
  | item hv => exact ⟨hv, hs, hp _ List.mem_cons_self⟩
  | items hv hr => exact ⟨hr, hv.sound hs, fun item hm => hp item (List.mem_cons_of_mem _ hm)⟩
  | member hv => exact ⟨hv, hs, hp.2 _ List.mem_cons_self⟩
  | members hv hr =>
      exact ⟨hr, hv.sound hs, (List.nodup_cons.mp hp.1).2,
        fun entry hm => hp.2 entry (List.mem_cons_of_mem _ hm)⟩
  | inlined _ _ _ hn h => exact ⟨h, hs.atPlace.withShelf, hd.node? hn⟩
  | @hoisted _ _ _ _ _ _ wanted _ _ _ _ s _ _ _ _ hw hn h =>
      exact ⟨h, (hs.withName (hw ▸ Walk.freeName_notMem s.taken wanted)).withShelf, hd.node? hn⟩

theorem Makes.standsIn (h : Makes docs rootUrl call made) (hc : call.Sane docs rootUrl) :
    made.StandsIn call := by
  obtain ⟨_, hs, hp⟩ := hc
  intro place value hstands
  cases h with
  | array => exact hstands.within_nil (Part.within_array _) id
  | object => exact hstands.within_nil (Part.within_object _) id
  | item hv hr =>
      exact hstands.within (Part.within_item_head _ _ _) (hr.grows (hv.sound hs)).hoisted
  | items => exact hstands.within_nil (Part.within_item_tail _ _ _) id
  | member hv hr =>
      exact hstands.within (Part.within_member_head _ _ _) (hr.grows (hv.sound hs)).hoisted
  | @members _ _ _ name _ _ rest rest' _ _ _ hv hr =>
      -- the walk brings no name, so no later member hides behind this one
      have hfresh : name ∉ Members.names rest' := by
        have hrel := hr.members_lookup name
        rw [lookup_eq_none_iff_notMem.mpr (List.nodup_cons.mp hp.1).1] at hrel
        generalize hl : rest'.lookup name = found at hrel
        cases hrel
        exact lookup_eq_none_iff_notMem.mp hl
      exact hstands.within_nil (Part.within_member_tail _ hfresh) id
  | inlined => exact hstands
  | @hoisted _ _ _ _ _ target wanted name _ schema _ s s' _ _ _ hw _ h =>
      have hfree : name ∉ s.taken := hw ▸ Walk.freeName_notMem s.taken wanted
      have hg : s'.Grows (s'.withSchema name schema) :=
        .addSchema (h.lookup_hoisted_of_free hs hfree)
      have hl : (s'.withSchema name schema).hoisted.lookup name = some schema := by
        rw [Progress.lookup_withSchema, if_pos rfl]
      exact hstands.of_schema hl hg.hoisted

/-- Every call of a sane one is sane, and what it leaves stands in what the whole leaves. -/
theorem Meets.within (h : Meets docs rootUrl whole call) (hd : docs.Proper)
    (hw : whole.Sane docs rootUrl) : call.Sane docs rootUrl ∧ call.StandsIn whole := by
  induction h with
  | refl => exact ⟨hw, id⟩
  | tail _ hmakes ih =>
      obtain ⟨hsane, hstands⟩ := ih
      exact ⟨hmakes.sane hd hsane, fun h => hstands (hmakes.standsIn hsane h)⟩

end

/-! ## Calls that a reference makes -/

/-- The call that takes in a target, made by a call about a reference to it. -/
inductive TakesIn (docs : Library) (rootUrl target : Url) : Call → Call → Prop where
  | inlined {base path position value node value' shelf s s'}
      (hv : verdict rootUrl target (.ofPath path) position s = .inline)
      (hn : docs.node? target = some node)
      (h : Runs docs rootUrl target.document path (.ofPointer (.ofPath path)) (.value node)
        ((s.atPlace target (.ofPath path)).withShelf shelf) (.value value') s') :
      TakesIn docs rootUrl target ⟨base, path, position, .value value, s, .value value', s'⟩
        ⟨target.document, path, .ofPointer (.ofPath path), .value node,
          (s.atPlace target (.ofPath path)).withShelf shelf, .value value', s'⟩
  | hoisted {base path position value wanted name node schema shelf s s'}
      (hv : verdict rootUrl target (.ofPath path) position s = .hoist wanted)
      (hw : name = Walk.freeName s.taken wanted)
      (hn : docs.node? target = some node)
      (h : Runs docs rootUrl target.document (homePath name) .schema (.value node)
        ((s.withName target name).withShelf shelf) (.value schema) s') :
      TakesIn docs rootUrl target
        ⟨base, path, position, .value value, s,
          .value (value.withReference ("#" ++ (Pointer.home name).text)), s'.withSchema name schema⟩
        ⟨target.document, homePath name, .schema, .value node,
          (s.withName target name).withShelf shelf, .value schema, s'⟩

/-- A call about a reference makes no other calls. -/
theorem Makes.takesIn {docs : Library} {rootUrl target : Url} {call made : Call}
    (h : Makes docs rootUrl call made) (hr : call.Refers target) :
    TakesIn docs rootUrl target call made := by
  obtain ⟨value, text, hpart, hr, ht⟩ := hr
  cases h with
  | array =>
      cases hpart
      cases hr
  | object hr' =>
      cases hpart
      cases hr'.symm.trans hr
  | item | items | member | members => cases hpart
  | inlined hr' ht' hv hn h =>
      cases hpart
      cases hr.symm.trans hr'
      cases ht.symm.trans ht'
      exact .inlined hv hn h
  | hoisted hr' ht' hv hw hn h =>
      cases hpart
      cases hr.symm.trans hr'
      cases ht.symm.trans ht'
      exact .hoisted hv hw hn h

/-! ## No value is missed -/

section

variable {docs : Library} {rootUrl base : Url} {path : Path} {position : Position}
  {s s' : Progress}

/-- The position of what is one step below what stands at a path. -/
def Position.toward (position : Position) (path : Path) : Step → Position
  | .member name => position.child (.ofPath path) name
  | .item _ => position.item

/-- The position of what is some steps below what stands at a path. -/
def Position.along (position : Position) (path : Path) : Path → Position
  | [] => position
  | step :: rest => (position.toward path step).along (path ++ [step]) rest

/-- A call about a value of the document `base` at a path. -/
def Call.IsAt (call : Call) (base : Url) (path : Path) (value : Json) : Prop :=
  call.base = base ∧ call.path = path ∧ call.part = .value value

theorem Runs.meets_item {start : Nat} {items items' : List Json}
    (h : Runs docs rootUrl base path position (.items start items) s (.items start items') s')
    {index : Nat} {item : Json} (hi : items[index]? = some item) :
    ∃ call, Meets docs rootUrl
        ⟨base, path, position, .items start items, s, .items start items', s'⟩ call ∧
      call.IsRun docs rootUrl ∧ call.IsAt base (path ++ [.item (start + index)]) item ∧
      call.position = position := by
  induction items generalizing start items' s index with
  | nil => cases hi
  | cons first rest ih =>
      cases h with
      | item hv hr =>
          cases index with
          | zero =>
              cases hi
              exact ⟨_, .single (.item hv hr), hv, ⟨rfl, rfl, rfl⟩, rfl⟩
          | succ index =>
              obtain ⟨call, hmeets, hrun, hat⟩ := ih hr hi
              rw [Nat.add_right_comm] at hat
              exact ⟨call, .head (.items hv hr) hmeets, hrun, hat⟩

theorem Runs.meets_member {members members' : Members}
    (h : Runs docs rootUrl base path position (.members members) s (.members members') s')
    {name : String} {value : Json} (hl : members.lookup name = some value) :
    ∃ call, Meets docs rootUrl
        ⟨base, path, position, .members members, s, .members members', s'⟩ call ∧
      call.IsRun docs rootUrl ∧ call.IsAt base (path ++ [.member name]) value ∧
      call.position = position.child (.ofPath path) name := by
  induction members generalizing members' s with
  | nil => cases hl
  | cons entry rest ih =>
      cases h with
      | member hv hr =>
          rw [List.lookup_cons] at hl
          split at hl
          · next heq =>
              cases hl
              rw [beq_iff_eq] at heq
              subst heq
              exact ⟨_, .single (.member hv hr), hv, ⟨rfl, rfl, rfl⟩, rfl⟩
          · obtain ⟨call, hmeets, hrun, hat⟩ := ih hr hl
            exact ⟨call, .head (.members hv hr) hmeets, hrun, hat⟩

/-- The walk of a value that is no Reference Object meets what is one step below it. -/
theorem Runs.meets_step? {value value' child : Json} {step : Step}
    (h : Runs docs rootUrl base path position (.value value) s (.value value') s')
    (hr : value.reference? = none) (hc : value.step? step = some child) :
    ∃ call, Meets docs rootUrl ⟨base, path, position, .value value, s, .value value', s'⟩ call ∧
      call.IsRun docs rootUrl ∧ call.IsAt base (path ++ [step]) child ∧
      call.position = position.toward path step := by
  cases h with
  | scalar h => cases value <;> cases step <;> first | cases hc | cases h
  | array h =>
      cases step with
      | member name => cases hc
      | item index =>
          obtain ⟨call, hmeets, hrun, hat⟩ := h.meets_item hc
          rw [Nat.zero_add] at hat
          exact ⟨call, .head (.array h) hmeets, hrun, hat⟩
  | object hr' h =>
      cases step with
      | member name =>
          obtain ⟨call, hmeets, hrun, hat⟩ := h.meets_member hc
          exact ⟨call, .head (.object hr' h) hmeets, hrun, hat⟩
      | item index => cases hc
  | link hr' => cases hr'.symm.trans hr
  | inlined hr' => cases hr'.symm.trans hr
  | hoisted hr' => cases hr'.symm.trans hr

/-- What comes of a value is a value. -/
theorem Runs.exists_value {value : Json} {part : Part}
    (h : Runs docs rootUrl base path position (.value value) s part s') :
    ∃ value', part = .value value' := by
  cases h <;> exact ⟨_, rfl⟩

/-- The walk of a value meets everything that stands below no Reference Object, in the position that
the steps lead to. -/
theorem Runs.meets_along {value value' node : Json} {rest : Path}
    (h : Runs docs rootUrl base path position (.value value) s (.value value') s')
    (hr : value.AllAbove (·.reference? = none) rest)
    (hn : value.at? rest = some node) :
    ∃ call, Meets docs rootUrl ⟨base, path, position, .value value, s, .value value', s'⟩ call ∧
      call.IsAt base (path ++ rest) node ∧ call.position = position.along path rest := by
  -- on the steps; no value that one is taken from is a Reference Object
  induction rest generalizing path position value value' s s' with
  | nil =>
      cases hn
      exact ⟨_, .refl, ⟨rfl, (List.append_nil path).symm, rfl⟩, rfl⟩
  | cons step rest ih =>
      obtain ⟨child, hc, hn⟩ := Option.bind_eq_some_iff.mp hn
      obtain ⟨⟨_, _, _, _, _, result, _⟩, hmeets, hrun, ⟨rfl, rfl, rfl⟩, rfl⟩ :=
        h.meets_step? hr.head hc
      obtain ⟨child', rfl⟩ := hrun.exists_value
      obtain ⟨call, hmeets', hat, hposition⟩ := ih hrun (hr.tail hc) hn
      rw [List.append_assoc, List.singleton_append] at hat
      exact ⟨call, hmeets.trans hmeets', hat, hposition⟩

/-- The walk of a value meets everything that stands below no Reference Object. -/
theorem Runs.meets_at? {value value' node : Json} {rest : Path}
    (h : Runs docs rootUrl base path position (.value value) s (.value value') s')
    (hr : value.AllAbove (·.reference? = none) rest)
    (hn : value.at? rest = some node) :
    ∃ call, Meets docs rootUrl ⟨base, path, position, .value value, s, .value value', s'⟩ call ∧
      call.IsAt base (path ++ rest) node := by
  obtain ⟨call, hmeets, hat, _⟩ := h.meets_along hr hn
  exact ⟨call, hmeets, hat⟩

end

end OpenApi
