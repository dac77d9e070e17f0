import OpenApi.Proofs.Bundle.Origin

/-!
# Why a walk fails

A walk has two reasons to fail: it ran out of fuel, or it met a reference that denotes nothing.
`blame_walk` shows it value by value for any way of replacing references that fails for no other
reason, and `blaming_replaceReference` shows that the bundler's way is such a one: what it takes in is
again a part of some document. So an unresolved reference is reported with its text as written and the
URL of the document that holds it.
-/

namespace OpenApi

/-- A reference of the document `base` denotes no node. -/
def Library.Dangling (docs : Library) (base : Url) (text : String) : Prop :=
  (∃ tree, docs base = some tree ∧ text ∈ tree.references) ∧
    ∀ {target node}, joinReference base text = .ok target → docs.node? target ≠ some node

/-- An error says that fuel ran out, or it names a reference that denotes no node. -/
def Error.Blames (docs : Library) (error : Error) : Prop :=
  error.Exhausted ∨
    ∃ base text, docs.Dangling base text ∧ error = .unresolvedReference text base.text

section Walks

variable {source : Source} {docs : Library} {rootUrl base : Url} {onReference : OnReference}

/-- Replacing a reference of the document `base` fails for these reasons only. -/
def Blaming (source : Source) (docs : Library) (base : Url) (onReference : OnReference) : Prop :=
  ∀ {value text path position error s s'}, value.reference? = some text → docs.Holds base value →
    available source s.shelf = docs →
    onReference value text (.ofPath path) position s = .error error s' → error.Blames docs

mutual

theorem blame_walk (hd : docs.Proper) (ha : Answers source docs rootUrl base onReference)
    (hb : Blaming source docs base onReference) (value : Json) {path : Path} {position : Position}
    {error : Error} {s s' : Progress} (hh : docs.Holds base value)
    (hs : available source s.shelf = docs)
    (h : value.walk onReference (.ofPath path) position s = .error error s') : error.Blames docs := by
  cases value with
  | object members =>
      cases hr : (Json.object members).reference? with
      | some text =>
          rw [Json.walk_reference hr] at h
          exact hb hr hh hs h
      | none =>
          rw [Json.walk_object hr, Walk.map_run] at h
          split at h
          · simp at h
          · next fault s₁ hm =>
              cases h
              exact blame_walkMembers hd ha hb members (fun _ he => hh.of_mem_members hd he) hs hm
  | array items =>
      rw [Json.walk_array, Walk.map_run] at h
      split at h
      · simp at h
      · next fault s₁ hi =>
          cases h
          exact blame_walkItems hd ha hb items (fun _ hm => hh.of_mem_items hm) hs hi
  | _ =>
      rw [Json.walk_scalar rfl] at h
      cases h

theorem blame_walkItems (hd : docs.Proper) (ha : Answers source docs rootUrl base onReference)
    (hb : Blaming source docs base onReference) (items : List Json) {path : Path}
    {position : Position} {index : Nat} {error : Error} {s s' : Progress}
    (hh : ∀ item ∈ items, docs.Holds base item) (hs : available source s.shelf = docs)
    (h : Json.walkItems onReference (.ofPath path) position index items s = .error error s') :
    error.Blames docs := by
  cases items with
  | nil =>
      unfold Json.walkItems at h
      cases h
  | cons item rest =>
      rw [Json.walkItems, Walk.bind_run, ← Pointer.ofPath_item] at h
      split at h
      · next item' s₁ hi =>
          rw [Walk.bind_run] at h
          split at h
          · cases h
          · next fault s₂ hrest =>
              cases h
              exact blame_walkItems hd ha hb rest (fun item hm => hh item (List.mem_cons_of_mem _ hm))
                (sees_walk ha item hi hs).2 hrest
      · next fault s₁ hi =>
          cases h
          exact blame_walk hd ha hb item (hh item List.mem_cons_self) hs hi

theorem blame_walkMembers (hd : docs.Proper) (ha : Answers source docs rootUrl base onReference)
    (hb : Blaming source docs base onReference) (members : List (String × Json)) {path : Path}
    {position : Position} {error : Error} {s s' : Progress}
    (hh : ∀ entry ∈ members, docs.Holds base entry.2) (hs : available source s.shelf = docs)
    (h : Json.walkMembers onReference (.ofPath path) position members s = .error error s') :
    error.Blames docs := by
  cases members with
  | nil =>
      unfold Json.walkMembers at h
      cases h
  | cons entry rest =>
      obtain ⟨name, value⟩ := entry
      rw [Json.walkMembers, Walk.bind_run, ← Pointer.ofPath_member] at h
      split at h
      · next value' s₁ hv =>
          rw [Walk.bind_run] at h
          split at h
          · cases h
          · next fault s₂ hrest =>
              cases h
              exact blame_walkMembers hd ha hb rest
                (fun entry hm => hh entry (List.mem_cons_of_mem _ hm)) (sees_walk ha value hv hs).2
                hrest
      · next fault s₁ hv =>
          cases h
          exact blame_walk hd ha hb value (hh (name, value) List.mem_cons_self) hs hv

end

end Walks

section Fuel

variable {source : Source} {docs : Library} {rootUrl : Url}

/-- Taking in a target fails if it denotes no node, or if the walk of its node fails. -/
theorem takeIn_run_error {fuel : Nat} {base target : Url} {text : String} {pointer : Pointer}
    {position : Position} {error : Error} {s s' : Progress} (hd : available source s.shelf = docs)
    (h : takeIn source rootUrl fuel base target text pointer position s = .error error s') :
    (docs.node? target = none ∧ error = .unresolvedReference text base.text) ∨
      ∃ node shelf, docs.node? target = some node ∧ available source shelf = docs ∧
        node.walk (replaceReference source rootUrl fuel target.document) pointer position
          (s.withShelf shelf) = .error error s' := by
  obtain ⟨shelf, hshelf, hrun⟩ := Walk.target_run hd base target text
  rw [takeIn, Walk.bind_run, hrun] at h
  cases hn : docs.node? target with
  | none =>
      rw [hn] at h
      cases h
      exact .inl ⟨rfl, rfl⟩
  | some node =>
      rw [hn] at h
      exact .inr ⟨node, shelf, rfl, hshelf, h⟩

/-- To call a reference unresolved blames it, if its text denotes no node. -/
theorem blames_of_reference {base : Url} {value : Json} {text : String}
    (hr : value.reference? = some text) (hh : docs.Holds base value)
    (hnone : ∀ target, joinReference base text = .ok target → docs.node? target = none) :
    Error.Blames docs (.unresolvedReference text base.text) := by
  obtain ⟨tree, place, hfound, ha⟩ := hh
  have hm : text ∈ tree.references :=
    Json.references_subset_of_at? ha (Json.mem_references_of_reference? hr)
  refine .inr ⟨base, text, ⟨⟨tree, hfound, hm⟩, fun {target} _ ht => ?_⟩, rfl⟩
  rw [hnone target ht]
  simp

/-- A target that cannot be taken in denotes no node, or the walk of its node is to blame. -/
theorem blames_of_takeIn (hd : docs.Proper) {fuel : Nat} {base target : Url} {value : Json}
    {text : String} {path : Path} {position : Position} {error : Error} {s s' : Progress}
    (ih : Blaming source docs target.document
      (replaceReference source rootUrl fuel target.document))
    (hr : value.reference? = some text) (hh : docs.Holds base value)
    (ht : joinReference base text = .ok target) (hs : available source s.shelf = docs)
    (h : takeIn source rootUrl fuel base target text (.ofPath path) position s = .error error s') :
    error.Blames docs := by
  rcases takeIn_run_error hs h with ⟨hnone, rfl⟩ | ⟨node, shelf, hn, hshelf, h⟩
  · refine blames_of_reference hr hh fun other ho => ?_
    cases ht.symm.trans ho
    exact hnone
  · exact blame_walk hd (fun hr h => sees_replaceReference fuel hr h) ih node (.of_node? hn) hshelf h

/-- The bundler fails at a reference for want of fuel or for a dangling one. -/
theorem blaming_replaceReference (hd : docs.Proper) (fuel : Nat) (base : Url) :
    Blaming source docs base (replaceReference source rootUrl fuel base) := by
  induction fuel generalizing base with
  | zero =>
      intro value text path position error s s' _ _ _ h
      unfold replaceReference at h
      cases h
      exact .inl ⟨_, rfl⟩
  | succ fuel ih =>
      intro value text path position error s s' hr hh hs h
      rw [replaceReference_run] at h
      cases ht : joinReference base text with
      | error fault =>
          rw [ht] at h
          cases h
          rw [joinReference_eq_error ht]
          refine blames_of_reference hr hh fun target ht' => ?_
          cases ht.symm.trans ht'
      | ok target =>
          -- what is taken in is walked with less fuel
          have htake : ∀ {path : Path} {position : Position} {s s' : Progress},
              available source s.shelf = docs →
              takeIn source rootUrl fuel base target text (.ofPath path) position s
                = .error error s' → error.Blames docs :=
            fun hs h => blames_of_takeIn hd (ih target.document) hr hh ht hs h
          simp only [ht] at h
          cases hv : verdict rootUrl target (.ofPath path) position s with
          | link new =>
              simp only [hv] at h
              cases h
          | inline =>
              simp only [hv] at h
              exact htake (s := s.atPlace target (.ofPath path)) hs h
          | hoist wanted =>
              simp only [hv] at h
              split at h
              · cases h
              · next fault s₁ hrun =>
                  cases h
                  rw [← ofPath_homePath] at hrun
                  exact htake (s := s.withName target (Walk.freeName s.taken wanted)) hs hrun

/-- The walk of a value of some document fails for want of fuel or for a dangling reference. -/
theorem blames_of_walk (hd : docs.Proper) {fuel : Nat} {base : Url} {value : Json} {path : Path}
    {position : Position} {error : Error} {s s' : Progress} (hh : docs.Holds base value)
    (hs : available source s.shelf = docs)
    (h : value.walk (replaceReference source rootUrl fuel base) (.ofPath path) position s
      = .error error s') : error.Blames docs :=
  blame_walk hd (fun hr h => sees_replaceReference fuel hr h) (blaming_replaceReference hd fuel base)
    value hh hs h

/-- The walk of the root does. -/
theorem blames_of_walk_root {fuel : Nat} {root : Json} {error : Error} {s s' : Progress}
    (hs : available source s.shelf = docs) (hd : docs.Proper) (hroot : docs rootUrl = some root)
    (h : root.walk (replaceReference source rootUrl fuel rootUrl) .root .other s = .error error s') :
    error.Blames docs := by
  have hbelow : root.walk (replaceReference source rootUrl fuel rootUrl) (.ofPath []) .other s
      = .error error s' := h
  exact blames_of_walk hd ⟨root, [], hroot, rfl⟩ hs hbelow

end Fuel

end OpenApi
