import OpenApi.Proofs.Bundle.Assembly
import OpenApi.Proofs.Bundle.Trail

/-!
# The names that a bundling allocates

Names are reserved before the walk, taken before a target is walked, and stored only after that, so
the tables agree with each other at no single moment. What can be said of them holds at every state
that a bundling goes through, also of one that fails: `Allocation` says it of a list of states, and
`Progress.Track.allocation` derives it from what a single change does.

Only at the end of a successful walk are the names stored the ones allocated (`Runs.allocates`).
-/

namespace OpenApi

/-! ## Free names -/

namespace Walk

/-- The name that a target gets for the one it wants, where some names are taken. -/
structure Allots (taken : List String) (wanted name : String) : Prop where
  free : name ∉ taken
  asWanted : wanted ∉ taken → name = wanted
  /-- A name that is taken is numbered, with the least number from one on that makes it free. -/
  numbered : wanted ∈ taken → ∃ k, 1 ≤ k ∧ name = wanted ++ toString k ∧
    ∀ j, 1 ≤ j → j < k → wanted ++ toString j ∈ taken

theorem freeName_eq_of_mem {taken : List String} {wanted : String} (h : wanted ∈ taken) :
    ∃ k, (List.range (taken.length + 1)).find?
        (fun k => !taken.contains (wanted ++ toString (k + 1))) = some k ∧
      freeName taken wanted = wanted ++ toString (k + 1) := by
  have hfree := freeName_notMem taken wanted
  unfold freeName at hfree ⊢
  rw [if_pos (List.contains_iff_mem.mpr h)] at hfree ⊢
  dsimp only at hfree ⊢
  rw [List.find?_map] at hfree ⊢
  cases hf : (List.range (taken.length + 1)).find?
      ((fun name => !taken.contains name) ∘ fun k => wanted ++ toString (k + 1)) with
  | none =>
      -- the wanted name would be the free one
      rw [hf] at hfree
      exact absurd h hfree
  | some k => exact ⟨k, hf, rfl⟩

/-- The search for a free name ends, and finds the one that is allotted. -/
theorem allots_freeName (taken : List String) (wanted : String) :
    Allots taken wanted (freeName taken wanted) where
  free := freeName_notMem taken wanted
  asWanted h := by
    rw [freeName, if_neg fun hc => h (List.contains_iff_mem.mp hc)]
  numbered h := by
    obtain ⟨k, hfind, heq⟩ := freeName_eq_of_mem h
    obtain ⟨_, _, hbefore⟩ := List.find?_range_eq_some.mp hfind
    refine ⟨k + 1, Nat.le_add_left 1 k, heq, fun j hj hlt => ?_⟩
    have hmem := hbefore (j - 1) (by omega)
    rw [Nat.sub_add_cancel hj] at hmem
    simpa using hmem

example : freeName ["Error", "Error1", "Error12"] "Error" = "Error2" := by decide

example : freeName ["Error", "Error1", "Error12"] "Error1" = "Error11" := by decide

end Walk

/-! ## Earlier and later states -/

namespace Progress

variable {rootUrl : Url} {s s' : Progress} {states : List Progress}

/-- What an earlier state of a run says of a later one. -/
structure Extends (s s' : Progress) : Prop where
  /-- A target keeps its name. -/
  names : ∀ {target name}, s.names.lookup target = some name → s'.names.lookup target = some name
  /-- The names taken since are new, each of them once. -/
  taken : ∃ new, s'.taken = new ++ s.taken ∧ new.Nodup ∧ ∀ name ∈ new, name ∉ s.taken

theorem Extends.refl (s : Progress) : Extends s s :=
  ⟨id, [], rfl, List.nodup_nil, List.forall_mem_nil _⟩

theorem Extends.trans {s₁ s₂ s₃ : Progress} (h₁ : Extends s₁ s₂) (h₂ : Extends s₂ s₃) :
    Extends s₁ s₃ where
  names h := h₂.names (h₁.names h)
  taken := by
    obtain ⟨new₁, heq₁, hn₁, hf₁⟩ := h₁.taken
    obtain ⟨new₂, heq₂, hn₂, hf₂⟩ := h₂.taken
    rw [heq₁] at heq₂ hf₂
    refine ⟨new₂ ++ new₁, by rw [heq₂, List.append_assoc], ?_, fun name hm => ?_⟩
    · rw [List.nodup_append]
      refine ⟨hn₂, hn₁, fun a ha b hb heq => ?_⟩
      exact hf₂ a ha (List.mem_append_left _ (heq ▸ hb))
    · rcases List.mem_append.mp hm with hm | hm
      · exact fun ht => hf₂ name hm (List.mem_append_right _ ht)
      · exact hf₁ name hm

theorem Extends.of_taken_eq (hnames : ∀ {target name}, s.names.lookup target = some name →
      s'.names.lookup target = some name) (h : s'.taken = s.taken) : Extends s s' :=
  ⟨hnames, [], h, List.nodup_nil, List.forall_mem_nil _⟩

/-- A change keeps the names given and adds the one allotted, if any. -/
theorem Advance.extends (h : Advance rootUrl s s') : Extends s s' := by
  cases h with
  | fetch | place | schema => exact .of_taken_eq id rfl
  | reserve =>
      refine .of_taken_eq (fun hl => ?_) rfl
      rw [lookup_reserved, hl, Option.some_or]
  | @name _ _ _ wanted hv =>
      obtain ⟨_, hn, hp, _⟩ := verdict_eq_hoist hv
      refine ⟨(Grows.withName hn hp).names, [_], rfl, List.pairwise_singleton _ _, fun found hm => ?_⟩
      rw [List.mem_singleton.mp hm]
      exact Walk.freeName_notMem s.taken wanted

/-- A change keeps the tables consistent. -/
theorem Advance.sound (h : Advance rootUrl s s') (hs : s.Sound) : s'.Sound := by
  cases h with
  | fetch => exact hs.withShelf
  | place => exact hs.atPlace
  | schema ht => exact hs.withSchema ht
  | @name _ _ _ wanted _ => exact hs.withName (Walk.freeName_notMem s.taken wanted)
  | @reserve target name hn ht hfresh =>
      refine ⟨fun {a b found} ha hb => ?_, fun {other found} hl => ?_, hs.hoisted⟩
      · -- the name is nobody's yet, so both targets are the new one or both are old
        simp only [lookup_reserved, Option.or_eq_some_iff] at ha hb
        rcases ha with ha | ⟨_, ha⟩ <;> rcases hb with hb | ⟨_, hb⟩
        · exact hs.injective ha hb
        · split at hb <;> cases hb
          exact absurd ha hfresh
        · split at ha <;> cases ha
          exact absurd hb hfresh
        · split at ha <;> cases ha
          split at hb <;> cases hb
          next hat hbt => rw [hat, hbt]
      · rw [lookup_reserved, Option.or_eq_some_iff] at hl
        rcases hl with hl | ⟨_, hl⟩
        · exact hs.named hl
        · split at hl <;> cases hl
          exact ht

/-- Every state of a track extends each one before it. -/
theorem Track.pairwise (h : Track rootUrl s states s') : (s :: states).Pairwise Extends := by
  induction h with
  | nil => exact List.pairwise_singleton _ _
  | cons hadvance _ ih =>
      refine List.pairwise_cons.mpr ⟨fun later hm => ?_, ih⟩
      rcases List.mem_cons.mp hm with rfl | hm
      · exact hadvance.extends
      · exact hadvance.extends.trans ((List.pairwise_cons.mp ih).1 later hm)

theorem Track.sound (h : Track rootUrl s states s') (hs : s.Sound) :
    ∀ s₁ ∈ s :: states, s₁.Sound := by
  induction h with
  | nil => simpa using hs
  | cons hadvance _ ih => exact List.forall_mem_cons.mpr ⟨hs, ih (hadvance.sound hs)⟩

end Progress

/-! ## What is stored in the end -/

/-- A successful walk has stored what it allocated names for. -/
theorem Runs.allocates {docs : Library} {rootUrl base : Url} {path : Path} {position : Position}
    {part part' : Part} {s s' : Progress}
    (h : Runs docs rootUrl base path position part s part' s') (hs : s.Sound) :
    ∃ new, s'.taken = new ++ s.taken ∧ s'.hoisted.names.Perm (new ++ s.hoisted.names) := by
  induction h with
  | scalar | noItems | noMembers | link => exact ⟨[], rfl, .refl _⟩
  | array _ ih => exact ih hs
  | object _ _ ih => exact ih hs
  | item hv _ ihv ihr | member hv _ ihv ihr =>
      obtain ⟨new₁, ht₁, hp₁⟩ := ihv hs
      obtain ⟨new₂, ht₂, hp₂⟩ := ihr (hv.sound hs)
      refine ⟨new₂ ++ new₁, by rw [ht₂, ht₁, List.append_assoc], ?_⟩
      rw [List.append_assoc]
      exact hp₂.trans (hp₁.append_left new₂)
  | inlined _ _ _ _ _ ih => exact ih hs.atPlace.withShelf
  | @hoisted _ _ _ _ _ target wanted name _ _ _ s s' _ _ hv hw _ h ih =>
      -- the name is taken before the walk of the schema, and the schema stored after it
      have hfree : name ∉ s.taken := hw ▸ Walk.freeName_notMem s.taken wanted
      obtain ⟨new, ht, hp⟩ := ih (hs.withName hfree).withShelf
      have hnew : name ∉ s'.hoisted.names :=
        lookup_eq_none_iff_notMem.mp (h.lookup_hoisted_of_free hs hfree)
      refine ⟨new ++ [name], by rw [List.append_assoc]; exact ht, ?_⟩
      show (Members.set name _ s'.hoisted).names.Perm _
      rw [Members.names_set, if_neg hnew]
      calc (s'.hoisted.names ++ [name]).Perm (new ++ s.hoisted.names ++ [name]) :=
            hp.append_right [name]
        _ = new ++ (s.hoisted.names ++ [name]) := List.append_assoc ..
        List.Perm _ (new ++ ([name] ++ s.hoisted.names)) := List.perm_append_comm.append_left new
        _ = new ++ [name] ++ s.hoisted.names := (List.append_assoc ..).symm

/-! ## Whole bundlings -/

/-- What holds of names at all states of a run that starts with these names declared. -/
structure Allocation (rootUrl : Url) (declared : List String) (states : List Progress) : Prop where
  /-- No two targets share a name. -/
  injective : ∀ s ∈ states, ∀ {a b name}, s.names.lookup a = some name →
    s.names.lookup b = some name → a = b
  /-- A name that was allocated is not declared, and was not allocated before. -/
  fresh : ∀ s ∈ states, ∃ allocated, s.taken = allocated ++ declared ∧ allocated.Nodup ∧
    ∀ name ∈ allocated, name ∉ declared
  /-- A target keeps its name. -/
  kept : states.Pairwise fun s s' => ∀ {target name}, s.names.lookup target = some name →
    s'.names.lookup target = some name
  /-- A name is allocated only to a target that is hoisted, and it is the one allotted to it. -/
  allotted : states.IsChain fun s s' => s'.taken = s.taken ∨
    ∃ target pointer position wanted name,
      verdict rootUrl target pointer position s = .hoist wanted ∧
      Walk.Allots s.taken wanted name ∧ s' = s.withName target name

theorem Progress.Advance.allots {rootUrl : Url} {s s' : Progress} (h : Advance rootUrl s s') :
    s'.taken = s.taken ∨ ∃ target pointer position wanted name,
      verdict rootUrl target pointer position s = .hoist wanted ∧
      Walk.Allots s.taken wanted name ∧ s' = s.withName target name := by
  cases h with
  | fetch | reserve | place | schema => exact .inl rfl
  | name hv => exact .inr ⟨_, _, _, _, _, hv, Walk.allots_freeName _ _, rfl⟩

/-- Consistent tables at the start of a track allocate names as they should. -/
theorem Progress.Track.allocation {rootUrl : Url} {s s' : Progress} {states : List Progress}
    (h : Track rootUrl s states s') (hs : s.Sound) : Allocation rootUrl s.taken (s :: states) where
  injective s₁ hm := (h.sound hs s₁ hm).injective
  fresh s₁ hm := by
    rcases List.mem_cons.mp hm with rfl | hm
    · exact (Extends.refl s₁).taken
    · exact ((List.pairwise_cons.mp h.pairwise).1 s₁ hm).taken
  kept := h.pairwise.imp fun hextends => hextends.names
  allotted := h.isChain.imp fun _ _ hadvance => hadvance.allots

section

variable {source : Source} {fuel : Nat} {url : Url} {shelf : Shelf} {root : Json}
  {opened : Progress}

/-- Names are allocated injectively in every bundling of a root that can be read, whether it succeeds
or fails, and a successful walk stores just what it allocated names for. -/
theorem bundle_allocates (hroot : root.proper = true)
    (hread : Walk.document source url { shelf } = .ok root opened) :
    let declared := (root.componentSchemas?.getD []).names
    let states := { opened with taken := declared }
      :: bundleTrail source fuel url root { opened with taken := declared }
    Allocation url declared states ∧
      ∀ start, bundleStart source url { shelf } = .ok root start →
        states.getLast? = some ((bundleAt source fuel url).final { shelf }) ∧
        ∀ walked finish, root.walk (replaceReference source url fuel url) .root .other start
            = .ok walked finish →
          finish = (bundleAt source fuel url).final { shelf } ∧
          ∃ allocated, finish.taken = allocated ++ declared ∧
            finish.hoisted.names.Perm allocated := by
  intro declared states
  obtain ⟨shelf', rfl⟩ := Walk.document_run_ok hread
  have hs : Progress.Sound { ({ shelf } : Progress).withShelf shelf' with taken := declared } := by
    refine ⟨fun {a b name} h => ?_, fun {target name} h => ?_, fun {name schema} h => ?_⟩ <;> cases h
  obtain ⟨last, htrack, hlast⟩ := track_bundle source fuel url hroot
    { ({ shelf } : Progress).withShelf shelf' with taken := declared } rfl rfl
  refine ⟨htrack.allocation hs, fun start hstart => ?_⟩
  obtain ⟨names, hn, rfl⟩ := bundleStart_of_document hread hstart
  rw [bundleAt_final hstart]
  refine ⟨htrack.getLast?.trans (congrArg some (hlast names hn)), fun walked finish hwalk => ?_⟩
  have hruns := (walked_of_walk rfl hstart hwalk).runs
  obtain ⟨allocated, ht, hp⟩ := hruns.allocates (sound_of_bundleStart hroot hstart)
  refine ⟨(Walk.final_of_ok hwalk).symm, allocated, ht, ?_⟩
  rw [← List.append_nil allocated]
  exact hp

end

/-- A root with a schema whose name is taken, and two foreign ones: the name allocated to the first is
the one that the second wants. -/
def crowdedRoot : Json :=
  .object [("openapi", .string "3.0.0"), ("components", .object [("schemas", .object [
    ("A", .object [("properties", .object [
      ("p", .object [("$ref", .string "e#/definitions/A")]),
      ("q", .object [("$ref", .string "e#/definitions/A1")])])])])])]

/-- The documents for it. -/
def crowdedShelf : Shelf :=
  [(rootUrl, crowdedRoot),
    ({ rootUrl with path := .segments ["e"] }, .object [("definitions", .object [
      ("A", .object [("type", .string "string")]), ("A1", .object [("type", .string "integer")])])])]

/-- Where the allocated names collide with wanted ones, the schemas stored are still those
allocated. -/
theorem hoisted_crowdedShelf :
    crowdedRoot.proper = true ∧
      Walk.document .empty rootUrl { shelf := crowdedShelf }
        = .ok crowdedRoot { shelf := crowdedShelf } ∧
      Allocation rootUrl ["A"] ({ shelf := crowdedShelf, taken := ["A"] }
        :: bundleTrail .empty 2 rootUrl crowdedRoot { shelf := crowdedShelf, taken := ["A"] }) ∧
      ((bundleAt .empty 2 rootUrl).final { shelf := crowdedShelf }).taken = ["A11", "A1", "A"] ∧
      ((bundleAt .empty 2 rootUrl).final { shelf := crowdedShelf }).hoisted.names.Perm
        ["A11", "A1"] := by
  have hroot : crowdedRoot.proper = true := by decide
  have hread : Walk.document .empty rootUrl { shelf := crowdedShelf }
      = .ok crowdedRoot { shelf := crowdedShelf } := rfl
  have hruns : bundlesTo .empty 2 rootUrl crowdedShelf
      (fun _ finish => finish.taken == ["A11", "A1", "A"]) = true := by decide +kernel
  obtain ⟨document, finish, hrun, htaken⟩ := exists_of_bundlesTo hruns
  obtain ⟨root, walked, start, hstart, hwalk, hb⟩ := bundle_walk rfl hrun
  have hfound : available .empty crowdedShelf rootUrl = some crowdedRoot := rfl
  cases hfound.symm.trans hb.found
  obtain ⟨hallocation, hfinish⟩ := bundle_allocates hroot hread
  obtain ⟨heq, allocated, ht, hp⟩ := (hfinish start hstart).2 walked finish hwalk
  rw [eq_of_beq htaken] at ht
  have hallocated : ["A11", "A1"] = allocated := List.append_cancel_right ht
  rw [← heq]
  exact ⟨hroot, hread, hallocation, eq_of_beq htaken, hallocated ▸ hp⟩

end OpenApi
