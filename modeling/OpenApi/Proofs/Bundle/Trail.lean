import Mathlib.Data.List.Chain
import OpenApi.Proofs.Bundle.Whole

/-!
# The states of a bundling

`trail` is the list of the states that a walk goes through, read off the walk itself, also where it
fails midway. `Progress.Track` says that each state of such a list is reached from the one before by
one of five changes to the tables. The walks of a tree and of a reference are tracks whatever they
meet (`track_walk`, `tracks_replaceReference`), and so is a bundling (`track_bundle`), so what holds
at every moment of it is one lemma about a change and an induction on the track.
-/

namespace OpenApi

/-! ## The states of a run -/

/-- The progress that a walk ends with, whether it succeeds or fails. -/
def Walk.final (x : Walk α) (s : Progress) : Progress :=
  match x s with
  | .ok _ s' => s'
  | .error _ s' => s'

namespace Walk

variable {α β : Type} {s s' : Progress}

theorem final_of_ok {x : Walk α} {a : α} (h : x s = .ok a s') : x.final s = s' := by
  rw [final, h]

theorem final_of_error {x : Walk α} {error : Error} (h : x s = .error error s') :
    x.final s = s' := by
  rw [final, h]

theorem final_map (f : α → β) (x : Walk α) (s : Progress) : (f <$> x).final s = x.final s := by
  rw [final, final, map_run]
  cases x s <;> rfl

theorem final_bind_of_ok {x : Walk α} {a : α} (h : x s = .ok a s') (f : α → Walk β) :
    (x >>= f).final s = (f a).final s' := by
  rw [final, bind_run_ok h, final]

theorem final_bind_of_error {x : Walk α} {error : Error} (h : x s = .error error s')
    (f : α → Walk β) : (x >>= f).final s = s' := by
  rw [final, bind_run, h]

/-- The states of what comes after a walk: none if that fails. -/
def after (x : Walk α) (s : Progress) (more : α → Progress → List Progress) : List Progress :=
  match x s with
  | .ok a s' => more a s'
  | .error _ _ => []

theorem after_of_ok {x : Walk α} {a : α} (h : x s = .ok a s')
    (more : α → Progress → List Progress) : x.after s more = more a s' := by
  rw [after, h]

theorem after_of_error {x : Walk α} {error : Error} (h : x s = .error error s')
    (more : α → Progress → List Progress) : x.after s more = [] := by
  rw [after, h]

end Walk

/-- The states that replacing a reference goes through. -/
abbrev Trail := Json → String → Pointer → Position → Progress → List Progress

mutual

/-- The states that the walk of a tree goes through after the first, in order. -/
def Json.trail (onReference : OnReference) (trail : Trail) (pointer : Pointer)
    (position : Position) : Json → Progress → List Progress
  | .object members, s =>
    match (Json.object members).reference? with
    | some text => trail (.object members) text pointer position s
    | none => Json.trailMembers onReference trail pointer position members s
  | .array items, s => Json.trailItems onReference trail pointer position.item 0 items s
  | _, _ => []

/-- The states that the walk of items goes through. -/
def Json.trailItems (onReference : OnReference) (trail : Trail) (pointer : Pointer)
    (position : Position) (index : Nat) : List Json → Progress → List Progress
  | [], _ => []
  | item :: rest, s =>
    item.trail onReference trail (pointer.item index) position s ++
      (item.walk onReference (pointer.item index) position).after s fun _ s' =>
        Json.trailItems onReference trail pointer position (index + 1) rest s'

/-- The states that the walk of members goes through. -/
def Json.trailMembers (onReference : OnReference) (trail : Trail) (pointer : Pointer)
    (position : Position) : List (String × Json) → Progress → List Progress
  | [], _ => []
  | (name, value) :: rest, s =>
    value.trail onReference trail (pointer.member name) (position.child pointer name) s ++
      (value.walk onReference (pointer.member name) (position.child pointer name)).after s
        fun _ s' => Json.trailMembers onReference trail pointer position rest s'

end

/-- The states that taking in a target goes through: the document is read, and its node walked. -/
def takeTrail (source : Source) (base target : Url) (text : String)
    (trail : Json → Progress → List Progress) (s : Progress) : List Progress :=
  let read := Walk.target source base target.document (target.fragment.getD "") text
  read.final s :: read.after s trail

/-- The states that the bundler goes through at a reference: a place or a name is noted before the
target is taken in, and what was hoisted is stored after that. -/
def replaceTrail (source : Source) (rootUrl : Url) : Nat → Url → Trail
  | 0, _, _, _, _, _, _ => []
  | fuel + 1, base, _, text, pointer, position, s =>
    match joinReference base text with
    | .error _ => []
    | .ok target =>
      let taking (pointer : Pointer) (position : Position) :=
        takeTrail source base target text fun node =>
          node.trail (replaceReference source rootUrl fuel target.document)
            (replaceTrail source rootUrl fuel target.document) pointer position
      match verdict rootUrl target pointer position s with
      | .link _ => []
      | .inline =>
        let placed := s.atPlace target pointer
        placed :: taking pointer (.ofPointer pointer) placed
      | .hoist wanted =>
        let name := Walk.freeName s.taken wanted
        let named := s.withName target name
        named :: (taking (Pointer.home name) .schema named ++
          (takeIn source rootUrl fuel base target text (Pointer.home name) .schema).after named
            fun schema s' => [s'.withSchema name schema])

/-- The states that reserving the names of components goes through, one for each component. -/
def reserveTrail (rootUrl : Url) : Members → Progress → List Progress
  | [], _ => []
  | entry :: rest, s =>
    match reserveNames rootUrl [entry] s.names with
    | .error _ => []
    | .ok names => { s with names } :: reserveTrail rootUrl rest { s with names }

/-! ## From one state to the next -/

namespace Progress

/-- What a run may do to the tables in one go. -/
inductive Advance (rootUrl : Url) (s : Progress) : Progress → Prop where
  /-- A document is read, which changes the shelf or nothing. -/
  | fetch (shelf : Shelf) : Advance rootUrl s (s.withShelf shelf)
  /-- A component of the root keeps its own name for the target that it refers to. -/
  | reserve {target name} (hn : s.names.lookup target = none) (ht : name ∈ s.taken)
      (hfresh : ∀ {other}, s.names.lookup other ≠ some name) :
      Advance rootUrl s { s with names := s.names ++ [(target, name)] }
  | place {target pointer position} (h : verdict rootUrl target pointer position s = .inline) :
      Advance rootUrl s (s.atPlace target pointer)
  | name {target pointer position wanted}
      (h : verdict rootUrl target pointer position s = .hoist wanted) :
      Advance rootUrl s (s.withName target (Walk.freeName s.taken wanted))
  | schema {name} (ht : name ∈ s.taken) (schema : Json) : Advance rootUrl s (s.withSchema name schema)

/-- A sequence of states, each reached from the one before, from the first to the last. -/
inductive Track (rootUrl : Url) : Progress → List Progress → Progress → Prop where
  | nil {s} : Track rootUrl s [] s
  | cons {s s₁ s' rest} (h : Advance rootUrl s s₁) (ht : Track rootUrl s₁ rest s') :
      Track rootUrl s (s₁ :: rest) s'

variable {rootUrl : Url} {s s₁ s' : Progress} {states more : List Progress}

theorem Advance.track (h : Advance rootUrl s s') : Track rootUrl s [s'] s' := .cons h .nil

theorem Track.append (h : Track rootUrl s states s₁) (h' : Track rootUrl s₁ more s') :
    Track rootUrl s (states ++ more) s' := by
  induction h with
  | nil => exact h'
  | cons hadvance _ ih => exact .cons hadvance (ih h')

/-- Walks that come after each other go through their states one after the other. -/
theorem Track.bind {α β : Type} {x : Walk α} {f : α → Walk β}
    {more : α → Progress → List Progress} (h : Track rootUrl s states (x.final s))
    (hf : ∀ {a s₁}, x s = .ok a s₁ → Track rootUrl s₁ (more a s₁) ((f a).final s₁)) :
    Track rootUrl s (states ++ x.after s more) ((x >>= f).final s) := by
  cases hrun : x s with
  | error error s₁ =>
      rw [Walk.final_of_error hrun] at h
      rw [Walk.after_of_error hrun, Walk.final_bind_of_error hrun]
      exact h.append .nil
  | ok a s₁ =>
      rw [Walk.final_of_ok hrun] at h
      rw [Walk.after_of_ok hrun, Walk.final_bind_of_ok hrun]
      exact h.append (hf hrun)

theorem lookup_reserved (target other : Url) (name : String) :
    (s.names ++ [(target, name)]).lookup other
      = (s.names.lookup other).or (if other = target then some name else none) := by
  rw [List.lookup_append, List.lookup_cons]
  by_cases h : other = target
  · simp [h]
  · simp [beq_eq_false_iff_ne.mpr h, h]

theorem Advance.taken_subset (h : Advance rootUrl s s') : s.taken ⊆ s'.taken := by
  cases h with
  | fetch | reserve | place | schema => exact List.Subset.refl _
  | name => exact List.subset_cons_self _ _

theorem Track.taken_subset (h : Track rootUrl s states s') : s.taken ⊆ s'.taken := by
  induction h with
  | nil => exact List.Subset.refl _
  | cons hadvance _ ih => exact List.Subset.trans hadvance.taken_subset ih

theorem Track.getLast? (h : Track rootUrl s states s') : (s :: states).getLast? = some s' := by
  induction h with
  | nil => rfl
  | cons _ _ ih => rw [List.getLast?_cons_cons, ih]

theorem Track.isChain (h : Track rootUrl s states s') : (s :: states).IsChain (Advance rootUrl) := by
  induction h with
  | nil => exact .singleton _
  | cons hadvance _ ih => exact .cons_cons hadvance ih

end Progress

/-! ## The trail of a run is a track of it -/

section Walks

open Progress (Advance Track)

variable {rootUrl : Url} {onReference : OnReference} {trail : Trail}

/-- At every reference the trail leads from the state before to the state after. -/
def Tracks (rootUrl : Url) (onReference : OnReference) (trail : Trail) : Prop :=
  ∀ value text pointer position s, value.reference? = some text →
    Track rootUrl s (trail value text pointer position s)
      ((onReference value text pointer position).final s)

mutual

theorem track_walk (ht : Tracks rootUrl onReference trail) (value : Json) (pointer : Pointer)
    (position : Position) (s : Progress) :
    Track rootUrl s (value.trail onReference trail pointer position s)
      ((value.walk onReference pointer position).final s) := by
  cases value with
  | object members =>
      cases hr : (Json.object members).reference? with
      | some text =>
          rw [Json.trail, hr, Json.walk_reference hr]
          exact ht _ text pointer position s hr
      | none =>
          rw [Json.trail, hr, Json.walk_object hr, Walk.final_map]
          exact track_walkMembers ht members pointer position s
  | array items =>
      rw [Json.trail, Json.walk_array, Walk.final_map]
      exact track_walkItems ht items pointer position.item 0 s
  | _ =>
      rw [Json.trail, Json.walk_scalar rfl]
      · exact .nil
      all_goals intro _ heq; cases heq

theorem track_walkItems (ht : Tracks rootUrl onReference trail) (items : List Json)
    (pointer : Pointer) (position : Position) (index : Nat) (s : Progress) :
    Track rootUrl s (Json.trailItems onReference trail pointer position index items s)
      ((Json.walkItems onReference pointer position index items).final s) := by
  cases items with
  | nil =>
      unfold Json.trailItems Json.walkItems
      exact .nil
  | cons item rest =>
      rw [Json.trailItems, Json.walkItems]
      refine (track_walk ht item (pointer.item index) position s).bind fun {item' s₁} _ => ?_
      rw [bind_pure_comp, Walk.final_map]
      exact track_walkItems ht rest pointer position (index + 1) s₁

theorem track_walkMembers (ht : Tracks rootUrl onReference trail)
    (members : List (String × Json)) (pointer : Pointer) (position : Position) (s : Progress) :
    Track rootUrl s (Json.trailMembers onReference trail pointer position members s)
      ((Json.walkMembers onReference pointer position members).final s) := by
  cases members with
  | nil =>
      unfold Json.trailMembers Json.walkMembers
      exact .nil
  | cons entry rest =>
      obtain ⟨name, value⟩ := entry
      rw [Json.trailMembers, Json.walkMembers]
      refine (track_walk ht value (pointer.member name) (position.child pointer name) s).bind
        fun {value' s₁} _ => ?_
      rw [bind_pure_comp, Walk.final_map]
      exact track_walkMembers ht rest pointer position s₁

end

end Walks

section Fuel

open Progress (Advance Track)

variable {source : Source} {rootUrl : Url}

/-- Reading a target changes the shelf only. -/
theorem Walk.exists_final_target (source : Source) (base target : Url) (text : String)
    (s : Progress) :
    ∃ shelf, (Walk.target source base target.document (target.fragment.getD "") text).final s
      = s.withShelf shelf := by
  obtain ⟨shelf, _, hrun⟩ := @Walk.target_run source _ s rfl base target text
  refine ⟨shelf, ?_⟩
  rw [Walk.final, hrun]
  cases Library.node? (available source s.shelf) target <;> rfl

theorem track_takeIn {fuel : Nat} {target : Url} {trail : Trail}
    (ht : Tracks rootUrl (replaceReference source rootUrl fuel target.document) trail)
    (base : Url) (text : String) (pointer : Pointer) (position : Position) (s : Progress) :
    Track rootUrl s
      (takeTrail source base target text
        (fun node => node.trail (replaceReference source rootUrl fuel target.document) trail pointer
          position) s)
      ((takeIn source rootUrl fuel base target text pointer position).final s) := by
  obtain ⟨shelf, hfinal⟩ := Walk.exists_final_target source base target text s
  have hfetch : Advance rootUrl s (s.withShelf shelf) := .fetch shelf
  rw [← hfinal] at hfetch
  exact hfetch.track.bind fun {node s₁} _ => track_walk ht node pointer position s₁

theorem tracks_replaceReference (source : Source) (rootUrl : Url) (fuel : Nat) (base : Url) :
    Tracks rootUrl (replaceReference source rootUrl fuel base)
      (replaceTrail source rootUrl fuel base) := by
  induction fuel generalizing base with
  | zero =>
      intro value text pointer position s _
      unfold replaceReference replaceTrail
      exact .nil
  | succ fuel ih =>
      intro value text pointer position s _
      rw [Walk.final, replaceReference_run, replaceTrail]
      cases joinReference base text with
      | error error => exact .nil
      | ok target =>
          dsimp only
          cases hv : verdict rootUrl target pointer position s with
          | link new => exact .nil
          | inline =>
              exact .cons (.place hv) (track_takeIn (ih target.document) base text pointer _ _)
          | hoist wanted =>
              have htake := track_takeIn (ih target.document) base text
                (Pointer.home (Walk.freeName s.taken wanted)) .schema
                (s.withName target (Walk.freeName s.taken wanted))
              refine .cons (.name hv) ?_
              dsimp only
              cases hrun : takeIn source rootUrl fuel base target text
                  (Pointer.home (Walk.freeName s.taken wanted)) .schema
                  (s.withName target (Walk.freeName s.taken wanted)) with
              | error error s₁ =>
                  rw [Walk.final_of_error hrun] at htake
                  rw [Walk.after_of_error hrun]
                  exact htake.append .nil
              | ok schema s₁ =>
                  rw [Walk.final_of_ok hrun] at htake
                  rw [Walk.after_of_ok hrun]
                  have htaken := htake.taken_subset List.mem_cons_self
                  exact htake.append (Advance.schema htaken schema).track

end Fuel

/-! ## Reserving names -/

/-- Reserving the names of components that have none yet is a track to the tables with these names, if
it succeeds. -/
theorem track_reserve (rootUrl : Url) {declared : Members} (s : Progress)
    (hn : declared.names.Nodup) (ht : declared.names ⊆ s.taken)
    (hfresh : ∀ name ∈ declared.names, ∀ other, s.names.lookup other ≠ some name) :
    ∃ s', Progress.Track rootUrl s (reserveTrail rootUrl declared s) s' ∧
      ∀ names, reserveNames rootUrl declared s.names = .ok names → s' = { s with names } := by
  induction declared generalizing s with
  | nil =>
      refine ⟨s, .nil, fun names h => ?_⟩
      unfold reserveNames at h
      cases h
      rfl
  | cons entry rest ih =>
      obtain ⟨name, schema⟩ := entry
      obtain ⟨hname, hrest⟩ := List.nodup_cons.mp hn
      have hnames : ∀ other, s.names.lookup other ≠ some name := hfresh name List.mem_cons_self
      rw [reserveTrail]
      simp only [reserveNames_cons rootUrl (name, schema) rest]
      cases hone : reserveNames rootUrl [(name, schema)] s.names with
      | error error => exact ⟨s, .nil, fun names h => by cases h⟩
      | ok names₁ =>
          dsimp only
          have hlater : ∀ later ∈ Members.names rest, ∀ other,
              names₁.lookup other ≠ some later := by
            intro later hm other
            have hold := hfresh later (List.mem_cons_of_mem _ hm) other
            rcases reserveNames_singleton hone with rfl | ⟨_, target, _, _, _, _, rfl⟩
            · exact hold
            · rw [Progress.lookup_reserved, Ne, Option.or_eq_some_iff, not_or]
              refine ⟨hold, fun hl => ?_⟩
              split at hl <;> cases hl.2
              exact hname hm
          obtain ⟨s', htrack, hlast⟩ := ih { s with names := names₁ } hrest
            (fun _ hm => ht (List.mem_cons_of_mem _ hm)) hlater
          refine ⟨s', .cons ?_ htrack, hlast⟩
          rcases reserveNames_singleton hone with rfl | ⟨_, target, _, _, _, hnone, rfl⟩
          · exact .fetch s.shelf
          · exact .reserve hnone (ht List.mem_cons_self) (hnames _)

/-! ## Whole bundlings -/

/-- The states that bundling a root goes through after its declared names were taken: its names are
reserved, and it is walked. -/
def bundleTrail (source : Source) (fuel : Nat) (url : Url) (root : Json) (s : Progress) :
    List Progress :=
  let declared := root.componentSchemas?.getD []
  reserveTrail url declared s ++
    match reserveNames url declared s.names with
    | .error _ => []
    | .ok names =>
      root.trail (replaceReference source url fuel url) (replaceTrail source url fuel url) .root
        .other { s with names }

theorem bundleFinish_final (url : Url) (walked : Json) (s : Progress) :
    (bundleFinish url walked).final s = s := by
  rw [Walk.final, bundleFinish_run]
  cases assembled s.hoisted walked with
  | error error => rfl
  | ok bundled =>
      dsimp only
      cases Document.ofTree url.text bundled <;> rfl

/-- Reading a document sets up no tables. -/
theorem Walk.document_run_ok {source : Source} {url : Url} {s s' : Progress} {root : Json}
    (h : Walk.document source url s = .ok root s') : ∃ shelf, s' = s.withShelf shelf := by
  rw [Walk.document_run] at h
  split at h
  · cases h
    exact ⟨s.shelf, rfl⟩
  · split at h
    · simp at h
    · cases h
      exact ⟨_, rfl⟩

/-- The states of a bundling are a track to the progress that it ends with, unless a name cannot be
reserved. -/
theorem track_bundle (source : Source) (fuel : Nat) (url : Url) {root : Json}
    (hroot : root.proper = true) (s : Progress) (hnames : s.names = [])
    (htaken : s.taken = (root.componentSchemas?.getD []).names) :
    ∃ last, Progress.Track url s (bundleTrail source fuel url root s) last ∧
      ∀ names, reserveNames url (root.componentSchemas?.getD []) [] = .ok names →
        last = (root.walk (replaceReference source url fuel url) .root .other).final
          { s with names } := by
  obtain ⟨reserved, htrack, hreserved⟩ := track_reserve url s
    (names_nodup_componentSchemas hroot) (htaken ▸ List.Subset.refl _)
    (fun name _ other => by rw [hnames]; simp)
  rw [bundleTrail, ← hnames]
  cases hn : reserveNames url (root.componentSchemas?.getD []) s.names with
  | error error => exact ⟨reserved, htrack.append .nil, fun names h => by cases h⟩
  | ok names =>
      rw [hreserved names hn] at htrack
      refine ⟨_, htrack.append (track_walk (tracks_replaceReference source url fuel url) root .root
        .other { s with names }), fun names' h => ?_⟩
      cases h
      rfl

section

variable {source : Source} {fuel : Nat} {url : Url} {shelf : Shelf} {root : Json}
  {opened start : Progress}

/-- A bundling whose root was read starts if its names can be reserved. -/
theorem bundleStart_of_document (hread : Walk.document source url { shelf } = .ok root opened)
    (h : bundleStart source url { shelf } = .ok root start) :
    ∃ names, reserveNames url (root.componentSchemas?.getD []) [] = .ok names ∧
      start = { opened with names, taken := (root.componentSchemas?.getD []).names } := by
  rw [bundleStart_run, hread] at h
  cases hc : checkVersion root with
  | error error =>
      simp only [hc] at h
      simp at h
  | ok =>
      simp only [hc] at h
      split at h
      · simp at h
      · next names hn =>
          cases h
          exact ⟨names, hn, rfl⟩

theorem bundleAt_final (h : bundleStart source url { shelf } = .ok root start) :
    (bundleAt source fuel url).final { shelf }
      = (root.walk (replaceReference source url fuel url) .root .other).final start := by
  rw [bundleAt_eq, Walk.final_bind_of_ok h]
  cases hrun : root.walk (replaceReference source url fuel url) .root .other start with
  | error error finish => rw [Walk.final_bind_of_error hrun, Walk.final_of_error hrun]
  | ok walked finish =>
      rw [Walk.final_bind_of_ok hrun, Walk.final_of_ok hrun, bundleFinish_final]

end

end OpenApi
