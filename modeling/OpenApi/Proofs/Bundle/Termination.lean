import OpenApi.Proofs.Bundle.Whole

/-!
# Bundling ends

A target is taken in where it is met first, and the walk of what was taken in may meet further
targets. Each of them then has a name or a place, so the number of pending targets, those with
neither, drops. One step takes in a target without this: an alias is a name that was given before
its target was walked, and a hoisted target may lead back to its own home, and there the target is
taken in again. Such a step is never followed by another: only targets of one name are taken in
again at its home, names are injective, and a target that refers to itself is excluded. So twice the
number of targets, and two for a last alias and its links, is fuel that no walk exhausts.
-/

namespace OpenApi

/-! ## Pending targets -/

/-- The targets of all references in a list of documents. -/
def targets (entries : List (Url × Json)) : List Url :=
  entries.flatMap fun (url, tree) =>
    tree.references.filterMap fun text => (joinReference url text).toOption

/-- Fuel for a walk over these documents. -/
def fuelBound (entries : List (Url × Json)) : Nat := 2 * (targets entries).length + 2

theorem mem_targets {entries : List (Url × Json)} {base target : Url} {tree : Json} {text : String}
    (he : (base, tree) ∈ entries) (hr : text ∈ tree.references)
    (ht : joinReference base text = .ok target) : target ∈ targets entries := by
  rw [targets, List.mem_flatMap]
  refine ⟨(base, tree), he, ?_⟩
  rw [List.mem_filterMap]
  exact ⟨text, hr, by rw [ht]; rfl⟩

namespace Progress

/-- Whether a target has neither a name nor a place. -/
def isPending (s : Progress) (target : Url) : Bool :=
  (s.names.lookup target).isNone && (s.places.lookup target).isNone

/-- The number of pending targets. -/
def pending (entries : List (Url × Json)) (s : Progress) : Nat :=
  (targets entries).countP s.isPending

theorem isPending_iff {s : Progress} {target : Url} :
    s.isPending target = true ↔ s.names.lookup target = none ∧ s.places.lookup target = none := by
  rw [isPending, Bool.and_eq_true, Option.isNone_iff_eq_none, Option.isNone_iff_eq_none]

theorem isPending_atPlace (s : Progress) (target : Url) (pointer : Pointer) :
    (s.atPlace target pointer).isPending target = false := by
  have hlookup : (s.atPlace target pointer).places.lookup target = some pointer :=
    List.lookup_cons_self
  rw [isPending, hlookup, Option.isNone_some, Bool.and_false]

theorem isPending_withName (s : Progress) (target : Url) (name : String) :
    (s.withName target name).isPending target = false := by
  rw [isPending, lookup_withName, if_pos rfl, Option.isNone_some, Bool.false_and]

theorem isPending_of_grows {s s' : Progress} {target : Url} (h : s.Grows s')
    (hp : s'.isPending target = true) : s.isPending target = true := by
  rw [isPending_iff] at hp ⊢
  constructor
  · cases hn : s.names.lookup target with
    | none => rfl
    | some name =>
        have hname := h.names hn
        rw [hp.1] at hname
        simp at hname
  · rw [lookup_eq_none_iff_notMem]
    intro hm
    exact lookup_eq_none_iff_notMem.mp hp.2 (List.map_subset _ h.places hm)

theorem pending_le_of_grows {entries : List (Url × Json)} {s s' : Progress} (h : s.Grows s') :
    s'.pending entries ≤ s.pending entries :=
  List.countP_mono_left fun _ _ hp => isPending_of_grows h hp

/-- A target that is no longer pending was counted before. -/
theorem pending_lt_of_grows {entries : List (Url × Json)} {s s' : Progress} {target : Url}
    (h : s.Grows s') (hm : target ∈ targets entries) (hp : s.isPending target = true)
    (hp' : s'.isPending target = false) : s'.pending entries < s.pending entries :=
  countP_lt_countP (fun _ => isPending_of_grows h) hm hp hp'

end Progress

/-! ## Outcomes that more fuel does not change -/

/-- The error of a walk that ran out of fuel. -/
def Error.Exhausted (error : Error) : Prop := ∃ text, error = .retrieval (.nestedTooDeeply text)

variable {α β : Type}

/-- Two outcomes are the same, and not for want of fuel. -/
structure Settled (x y : EStateM.Result Error Progress α) : Prop where
  eq : x = y
  not_exhausted : ∀ {error s}, x = .error error s → ¬error.Exhausted

theorem Settled.ok (a : α) (s : Progress) : Settled (.ok a s) (.ok a s : EStateM.Result Error _ α) :=
  ⟨rfl, fun heq => by cases heq⟩

theorem Settled.error {error : Error} (s : Progress) (h : ¬error.Exhausted) :
    Settled (.error error s) (.error error s : EStateM.Result Error Progress α) :=
  ⟨rfl, fun heq => by cases heq; exact h⟩

theorem Settled.bind {x y : Walk α} {f g : α → Walk β} {s : Progress} (h : Settled (x s) (y s))
    (hf : ∀ {a s'}, x s = .ok a s' → Settled (f a s') (g a s')) :
    Settled ((x >>= f) s) ((y >>= g) s) := by
  rw [Walk.bind_run, Walk.bind_run, ← h.eq]
  cases hx : x s with
  | ok a s' => exact hf hx
  | error error s' => exact .error s' (h.not_exhausted hx)

theorem Settled.map {x y : Walk α} (f : α → β) {s : Progress} (h : Settled (x s) (y s)) :
    Settled ((f <$> x) s) ((f <$> y) s) := by
  rw [Walk.map_run, Walk.map_run, ← h.eq]
  cases hx : x s with
  | ok a s' => exact .ok _ _
  | error error s' => exact .error s' (h.not_exhausted hx)

theorem not_exhausted_unresolved (text base : String) :
    ¬(Error.unresolvedReference text base).Exhausted := by
  rintro ⟨_, h⟩
  simp at h

/-! ## Walks whose references are settled -/

section Walks

variable {source : Source} {docs : Library} {rootUrl base : Url} {f g : OnReference}

/-- A progress that a walk can come to from `s`. -/
structure Later (source : Source) (docs : Library) (s s' : Progress) : Prop where
  grows : s.Grows s'
  sound : s'.Sound
  sees : available source s'.shelf = docs

theorem Later.trans_sees {s s₁ s₂ : Progress} {path : Path} {position : Position}
    {part part' : Part} (h : Later source docs s s₁)
    (hsees : Sees source docs rootUrl base path position part part' s₁ s₂) :
    Later source docs s s₂ := by
  obtain ⟨hruns, hd⟩ := hsees h.sees
  exact ⟨h.grows.trans (hruns.grows h.sound), hruns.sound h.sound, hd⟩

/-- Both handlers settle the references with these texts wherever they stand at a depth of `least`
or more, at any progress later than `s`. -/
def SettlesFrom (source : Source) (docs : Library) (s : Progress) (least : Nat)
    (texts : List String) (f g : OnReference) : Prop :=
  ∀ {value text path position s'}, value.reference? = some text → text ∈ texts →
    least ≤ path.length → Later source docs s s' →
    Settled (f value text (.ofPath path) position s') (g value text (.ofPath path) position s')

theorem SettlesFrom.mono {s : Progress} {least : Nat} {texts texts' : List String}
    (h : SettlesFrom source docs s least texts' f g) (hsub : texts ⊆ texts') :
    SettlesFrom source docs s least texts f g :=
  fun hr hm hl hs => h hr (hsub hm) hl hs

mutual

theorem settled_walk (ha : Answers source docs rootUrl base f) {s : Progress} (least : Nat)
    (value : Json) {path : Path} {position : Position} {s' : Progress}
    (h : SettlesFrom source docs s least value.references f g) (hl : least ≤ path.length)
    (hs : Later source docs s s') :
    Settled (value.walk f (.ofPath path) position s') (value.walk g (.ofPath path) position s') := by
  cases value with
  | object members =>
      cases hr : (Json.object members).reference? with
      | some text =>
          rw [Json.walk_reference hr, Json.walk_reference hr]
          exact h hr (Json.mem_references_of_reference? hr) hl hs
      | none =>
          rw [Json.walk_object hr, Json.walk_object hr]
          have hsub : Json.memberReferences members ⊆ (Json.object members).references := by
            unfold Json.references
            exact List.subset_append_right _ _
          exact .map _ (settled_walkMembers ha least members (h.mono hsub) (Nat.le_succ_of_le hl) hs)
  | array items =>
      rw [Json.walk_array, Json.walk_array]
      unfold Json.references at h
      exact .map _ (settled_walkItems ha least items h (Nat.le_succ_of_le hl) hs)
  | _ =>
      rw [Json.walk_scalar rfl, Json.walk_scalar rfl]
      exact .ok _ _

theorem settled_walkItems (ha : Answers source docs rootUrl base f) {s : Progress} (least : Nat)
    (items : List Json) {path : Path} {position : Position} {index : Nat} {s' : Progress}
    (h : SettlesFrom source docs s least (Json.itemReferences items) f g)
    (hl : least ≤ path.length + 1) (hs : Later source docs s s') :
    Settled (Json.walkItems f (.ofPath path) position index items s')
      (Json.walkItems g (.ofPath path) position index items s') := by
  cases items with
  | nil =>
      rw [Json.walkItems, Json.walkItems]
      exact .ok _ _
  | cons item rest =>
      unfold Json.itemReferences at h
      rw [Json.walkItems, Json.walkItems, ← Pointer.ofPath_item]
      refine .bind (settled_walk ha least item (h.mono (List.subset_append_left _ _)) ?_ hs) ?_
      · rwa [List.length_append]
      · intro item' s₁ hrun
        have hs₁ := hs.trans_sees (sees_walk ha item hrun)
        have hrest : SettlesFrom source docs s least (Json.itemReferences rest) f g :=
          h.mono (List.subset_append_right _ _)
        refine .bind (settled_walkItems ha least rest hrest hl hs₁) ?_
        intro rest' s₂ _
        exact .ok _ _

theorem settled_walkMembers (ha : Answers source docs rootUrl base f) {s : Progress} (least : Nat)
    (members : List (String × Json)) {path : Path} {position : Position} {s' : Progress}
    (h : SettlesFrom source docs s least (Json.memberReferences members) f g)
    (hl : least ≤ path.length + 1) (hs : Later source docs s s') :
    Settled (Json.walkMembers f (.ofPath path) position members s')
      (Json.walkMembers g (.ofPath path) position members s') := by
  cases members with
  | nil =>
      rw [Json.walkMembers, Json.walkMembers]
      exact .ok _ _
  | cons entry rest =>
      obtain ⟨name, value⟩ := entry
      unfold Json.memberReferences at h
      rw [Json.walkMembers, Json.walkMembers, ← Pointer.ofPath_member]
      refine .bind (settled_walk ha least value (h.mono (List.subset_append_left _ _)) ?_ hs) ?_
      · rwa [List.length_append]
      · intro value' s₁ hrun
        have hs₁ := hs.trans_sees (sees_walk ha value hrun)
        have hrest : SettlesFrom source docs s least (Json.memberReferences rest) f g :=
          h.mono (List.subset_append_right _ _)
        refine .bind (settled_walkMembers ha least rest hrest hl hs₁) ?_
        intro rest' s₂ _
        exact .ok _ _

end

/-- Below a value that is no Reference Object all references stand deeper. -/
theorem settled_walk_below (ha : Answers source docs rootUrl base f) {s : Progress} {value : Json}
    {path : Path} {position : Position} {s' : Progress} (hr : value.reference? = none)
    (h : SettlesFrom source docs s (path.length + 1) value.references f g)
    (hs : Later source docs s s') :
    Settled (value.walk f (.ofPath path) position s') (value.walk g (.ofPath path) position s') := by
  cases value with
  | object members =>
      rw [Json.walk_object hr, Json.walk_object hr]
      have hsub : Json.memberReferences members ⊆ (Json.object members).references := by
        unfold Json.references
        exact List.subset_append_right _ _
      exact .map _ (settled_walkMembers ha (path.length + 1) members (h.mono hsub) (Nat.le_refl _) hs)
  | array items =>
      rw [Json.walk_array, Json.walk_array]
      unfold Json.references at h
      exact .map _ (settled_walkItems ha (path.length + 1) items h (Nat.le_refl _) hs)
  | _ =>
      rw [Json.walk_scalar rfl, Json.walk_scalar rfl]
      exact .ok _ _

end Walks

/-! ## References that are replaced -/

namespace Pointer

theorem home_injective : Function.Injective home := by
  intro a b h
  have htokens := congrArg Pointer.tokens h
  rw [home, home, member, member] at htokens
  have hlast := List.append_cancel_left htokens
  rw [List.cons.injEq] at hlast
  exact encodeToken_injective hlast.1

theorem length_eq_of_ofPath_eq_home {path : Path} {name : String}
    (h : ofPath path = home name) : path.length = 3 := by
  have hlength := congrArg (fun p => p.tokens.length) h
  rwa [tokens_ofPath, List.length_map] at hlength

end Pointer

/-- Some Reference Object is its own target. -/
def Library.SelfReference (docs : Library) : Prop :=
  ∃ url tree path node text target, docs url = some tree ∧ tree.at? path = some node ∧
    node.reference? = some text ∧ joinReference url text = .ok target ∧ target.document = url ∧
    tree.locate? (target.fragment.getD "") = some path

/-- Whether no Reference Object of some documents is its own target, by trying all of them. -/
def selfReferenceFree (entries : List (Url × Json)) : Bool :=
  entries.all fun (url, tree) =>
    (tree.sites []).all fun (path, node) =>
      match node.reference?.map (joinReference url) with
      | some (.ok target) =>
        !(target.document = url && tree.locate? (target.fragment.getD "") = some path)
      | _ => true

theorem not_selfReference_of_free {docs : Library} {entries : List (Url × Json)}
    (hfinite : ∀ {url tree}, docs url = some tree → (url, tree) ∈ entries)
    (h : selfReferenceFree entries = true) : ¬docs.SelfReference := by
  rintro ⟨url, tree, path, node, text, target, hd, ha, hr, hj, ht, hl⟩
  have htree := List.all_eq_true.mp h _ (hfinite hd)
  have hnode := List.all_eq_true.mp htree _ (Json.mem_sites_of_at? [] ha)
  simp only [hr, Option.map_some, hj, ht, hl, List.nil_append] at hnode
  simp at hnode

section Fuel

variable {source : Source} {docs : Library} {rootUrl : Url} {entries : List (Url × Json)}

theorem exists_tree_of_node? {target : Url} {node : Json} (h : docs.node? target = some node) :
    ∃ tree path, docs target.document = some tree ∧
      tree.locate? (target.fragment.getD "") = some path ∧ tree.at? path = some node := by
  obtain ⟨tree, ht, hn⟩ := Option.bind_eq_some_iff.mp h
  obtain ⟨path, hl, ha⟩ := Json.exists_locate?_of_resolve? hn
  exact ⟨tree, path, ht, hl, ha⟩

/-- A target whose node is a reference is not the target of that reference. -/
theorem target_ne_of_not_selfReference (hself : ¬docs.SelfReference) {target other : Url}
    {node : Json} {text : String} (hn : docs.node? target = some node)
    (hr : node.reference? = some text) (ht : joinReference target.document text = .ok other) :
    other ≠ target := by
  rintro rfl
  obtain ⟨tree, path, hd, hl, ha⟩ := exists_tree_of_node? hn
  exact hself ⟨_, tree, path, node, text, other, hd, ha, hr, ht, rfl, hl⟩

theorem settled_takeIn {n n' : Nat} {base target : Url} {text : String} {pointer : Pointer}
    {position : Position} {s : Progress} (hd : available source s.shelf = docs)
    (h : ∀ {node shelf}, docs.node? target = some node → available source shelf = docs →
      Settled
        (node.walk (replaceReference source rootUrl n target.document) pointer position
          (s.withShelf shelf))
        (node.walk (replaceReference source rootUrl n' target.document) pointer position
          (s.withShelf shelf))) :
    Settled (takeIn source rootUrl n base target text pointer position s)
      (takeIn source rootUrl n' base target text pointer position s) := by
  obtain ⟨shelf, hshelf, hrun⟩ := Walk.target_run hd base target text
  rw [takeIn, takeIn, Walk.bind_run, Walk.bind_run, hrun]
  cases hn : docs.node? target with
  | none => exact .error _ (not_exhausted_unresolved _ _)
  | some node => exact h hn hshelf

/-- Where a reference stands is not the home that the name of its target gives it. -/
def AwayFromHome (base : Url) (text : String) (path : Path) (s : Progress) : Prop :=
  ∀ {target name}, joinReference base text = .ok target → s.names.lookup target = some name →
    Pointer.ofPath path ≠ Pointer.home name

/-- Fuel that is enough for a reference while `d` targets are pending: two units for each of them and
two more, or one less where the reference is no alias at its own home. -/
def Ample (d fuel : Nat) (base : Url) (text : String) (path : Path) (s : Progress) : Prop :=
  2 * d + 2 ≤ fuel ∨ 2 * d + 1 ≤ fuel ∧ AwayFromHome base text path s

/-- Every reference for which fuel `n` is ample is settled by it. -/
def SettlesAmply (source : Source) (docs : Library) (rootUrl : Url) (entries : List (Url × Json))
    (n : Nat) : Prop :=
  ∀ {n' d base tree value text path position s}, n ≤ n' → docs base = some tree →
    text ∈ tree.references → value.reference? = some text → s.Sound →
    available source s.shelf = docs → s.pending entries ≤ d → Ample d n base text path s →
    Settled (replaceReference source rootUrl n base value text (.ofPath path) position s)
      (replaceReference source rootUrl n' base value text (.ofPath path) position s)

/-- A target that is no longer pending is taken in with two units less. -/
theorem SettlesAmply.settled_takeIn_of_pending {n n' d : Nat}
    (ih : SettlesAmply source docs rootUrl entries n) (hle : n ≤ n') {base target : Url}
    {text : String} {path : Path} {position : Position} {s s₁ : Progress}
    (hm : target ∈ targets entries) (hg : s.Grows s₁) (hs₁ : s₁.Sound)
    (hd₁ : available source s₁.shelf = docs) (hp₀ : s.isPending target = true)
    (hp₁ : s₁.isPending target = false) (hp : s.pending entries ≤ d) (hfuel : 2 * d ≤ n) :
    Settled (takeIn source rootUrl n base target text (.ofPath path) position s₁)
      (takeIn source rootUrl n' base target text (.ofPath path) position s₁) := by
  have hlt := Progress.pending_lt_of_grows hg hm hp₀ hp₁
  apply settled_takeIn hd₁
  intro node shelf hnode hsees
  obtain ⟨tree, place, htree, _, hat⟩ := exists_tree_of_node? hnode
  have hlater : Later source docs (s₁.withShelf shelf) (s₁.withShelf shelf) :=
    ⟨.refl _, hs₁.withShelf, hsees⟩
  refine settled_walk (fun hr h => sees_replaceReference n hr h) 0 node ?_ (Nat.zero_le _) hlater
  intro value' text' path' position' s' hr' hm' _ hlater'
  have hle' : s'.pending entries ≤ s₁.pending entries :=
    Progress.pending_le_of_grows (s := s₁.withShelf shelf) hlater'.grows
  have hample : Ample (d - 1) n target.document text' path' s' := .inl (by omega)
  exact ih hle htree (Json.references_subset_of_at? hat hm') hr' hlater'.sound hlater'.sees
    (by omega) hample

/-- An alias is taken in at its own home with one unit less: no reference that is met in it stands at
its own home. -/
theorem SettlesAmply.settled_takeIn_alias {n n' d : Nat}
    (ih : SettlesAmply source docs rootUrl entries n) (hle : n ≤ n')
    (hself : ¬docs.SelfReference) {base target : Url} {text name : String} {path : Path}
    {position : Position} {s : Progress} (hs : s.Sound) (hd : available source s.shelf = docs)
    (hname : s.names.lookup target = some name) (hhome : Pointer.ofPath path = Pointer.home name)
    (hp : s.pending entries ≤ d) (hfuel : 2 * d + 1 ≤ n) :
    Settled
      (takeIn source rootUrl n base target text (.ofPath path) position
        (s.atPlace target (.ofPath path)))
      (takeIn source rootUrl n' base target text (.ofPath path) position
        (s.atPlace target (.ofPath path))) := by
  refine settled_takeIn hd ?_
  intro node shelf hnode hsees
  obtain ⟨tree, place, htree, _, hat⟩ := exists_tree_of_node? hnode
  have hsub := Json.references_subset_of_at? hat
  have hlater : Later source docs s ((s.atPlace target (.ofPath path)).withShelf shelf) :=
    ⟨Progress.Grows.atPlace.withShelf, hs.atPlace.withShelf, hsees⟩
  have hpending : ∀ {s'}, s.Grows s' → s'.pending entries ≤ d := fun hg =>
    Nat.le_trans (Progress.pending_le_of_grows hg) hp
  cases hr' : node.reference? with
  | some text' =>
      -- it stands at this home too, but only the alias itself has the name of it
      rw [Json.walk_reference hr', Json.walk_reference hr']
      have haway : AwayFromHome target.document text' path
          ((s.atPlace target (.ofPath path)).withShelf shelf) := by
        intro other found ho hfound heq
        have hsame : name = found := Pointer.home_injective (hhome.symm.trans heq)
        subst hsame
        exact target_ne_of_not_selfReference hself hnode hr' ho (hs.injective hfound hname)
      exact ih hle htree (hsub (Json.mem_references_of_reference? hr')) hr' hlater.sound
        hlater.sees (hpending hlater.grows) (.inr ⟨hfuel, haway⟩)
  | none =>
      -- all references stand deeper than any home
      have hanswers : Answers source docs rootUrl target.document
          (replaceReference source rootUrl n target.document) :=
        fun hr h => sees_replaceReference n hr h
      refine settled_walk_below hanswers hr' ?_ hlater
      intro value' text' path' position' s' hrv hm' hlen hlater'
      have haway : AwayFromHome target.document text' path' s' := by
        intro other found _ _ heq
        have h₁ := Pointer.length_eq_of_ofPath_eq_home hhome
        have h₂ := Pointer.length_eq_of_ofPath_eq_home heq
        omega
      exact ih hle htree (hsub hm') hrv hlater'.sound hlater'.sees (hpending hlater'.grows)
        (.inr ⟨hfuel, haway⟩)

/-- Ample fuel settles every reference. -/
theorem settlesAmply (hfinite : ∀ {url tree}, docs url = some tree → (url, tree) ∈ entries)
    (hself : ¬docs.SelfReference) (n : Nat) : SettlesAmply source docs rootUrl entries n := by
  induction n with
  | zero =>
      intro n' d base tree value text path position s _ _ _ _ _ _ _ hfuel
      rcases hfuel with hfuel | ⟨hfuel, _⟩ <;> omega
  | succ n ih =>
      intro n' d base tree value text path position s hn hb hm hr hs hd hp hfuel
      obtain ⟨n', rfl⟩ : ∃ m, n' = m + 1 := ⟨n' - 1, by omega⟩
      have hle : n ≤ n' := by omega
      have hd₀ : 2 * d ≤ n := by
        rcases hfuel with hfuel | ⟨hfuel, _⟩ <;> omega
      rw [replaceReference_run, replaceReference_run]
      cases ht : joinReference base text with
      | error error =>
          rw [joinReference_eq_error ht]
          exact .error _ (not_exhausted_unresolved _ _)
      | ok target =>
          have hmem : target ∈ targets entries := mem_targets (hfinite hb) hm ht
          cases hv : verdict rootUrl target (.ofPath path) position s with
          | link new =>
              simp only [hv]
              exact .ok _ _
          | inline =>
              simp only [hv]
              rcases (verdict_eq_inline hv).2 with ⟨name, hname, hhome, _⟩ | ⟨hno, hplace, _⟩
              · have hone : 2 * d + 1 ≤ n := by
                  rcases hfuel with hfuel | ⟨_, haway⟩
                  · omega
                  · exact absurd hhome (haway ht hname)
                exact ih.settled_takeIn_alias hle hself hs hd hname hhome hp hone
              · exact ih.settled_takeIn_of_pending hle hmem .atPlace hs.atPlace hd
                  (Progress.isPending_iff.mpr ⟨hno, hplace⟩) (s.isPending_atPlace target _) hp hd₀
          | hoist wanted =>
              simp only [hv]
              obtain ⟨_, hno, hplace, _⟩ := verdict_eq_hoist hv
              generalize hname : Walk.freeName s.taken wanted = name
              have hfree : name ∉ s.taken := hname ▸ Walk.freeName_notMem s.taken wanted
              have hsettled : Settled
                  (takeIn source rootUrl n base target text (.ofPath (homePath name)) .schema
                    (s.withName target name))
                  (takeIn source rootUrl n' base target text (.ofPath (homePath name)) .schema
                    (s.withName target name)) :=
                ih.settled_takeIn_of_pending hle hmem (.withName hno hplace) (hs.withName hfree) hd
                  (Progress.isPending_iff.mpr ⟨hno, hplace⟩) (s.isPending_withName target name) hp hd₀
              rw [ofPath_homePath] at hsettled
              rw [← hsettled.eq]
              split
              · exact .ok _ _
              · next error s' hrun => exact .error _ (hsettled.not_exhausted hrun)

end Fuel

/-! ## Errors outside the walk -/

theorem checkVersion_eq_error {root : Json} {error : Error} (h : checkVersion root = .error error) :
    ∃ fault, error = .unsupportedVersion fault := by
  unfold checkVersion at h
  split at h
  · split at h
    · simp at h
    · cases h
      exact ⟨_, rfl⟩
  · split at h <;>
    · cases h
      exact ⟨_, rfl⟩

/-- A name cannot be reserved for a reference that has no URL. -/
theorem reserveNames_eq_error {rootUrl : Url} {declared : Members} {names : List (Url × String)}
    {error : Error} (h : reserveNames rootUrl declared names = .error error) :
    ∃ name schema text, (name, schema) ∈ declared ∧ schema.reference? = some text ∧
      joinReference rootUrl text = .error error := by
  induction declared generalizing names with
  | nil =>
      unfold reserveNames at h
      simp at h
  | cons entry rest ih =>
      obtain ⟨name, schema⟩ := entry
      have hrest : ∀ {names}, reserveNames rootUrl rest names = .error error →
          ∃ other found text, (other, found) ∈ (name, schema) :: rest ∧
            found.reference? = some text ∧ joinReference rootUrl text = .error error := by
        intro names h
        obtain ⟨other, found, text, hm, hfound⟩ := ih h
        exact ⟨other, found, text, List.mem_cons_of_mem _ hm, hfound⟩
      unfold reserveNames at h
      split at h
      · exact hrest h
      · next text hr =>
          split at h
          · next fault hj =>
              cases h
              exact ⟨name, schema, text, List.mem_cons_self, hr, hj⟩
          · split at h <;> exact hrest h

theorem eq_error_of_map {x : Except Error α} {f : α → β} {error : Error}
    (h : x.map f = .error error) : x = .error error := by
  cases x with
  | error found =>
      cases h
      rfl
  | ok a => cases h

theorem extend_eq_error {name : String} {fault : ParseFault}
    {change : Members → Except Error Members} {members : Members} {error : Error}
    (hc : ∀ {members error}, change members = .error error → ∃ fault, error = .parse fault)
    (h : Members.extend name fault change members = .error error) :
    ∃ fault, error = .parse fault := by
  unfold Members.extend at h
  split at h
  · exact hc (eq_error_of_map h)
  · exact hc (eq_error_of_map h)
  · cases h
    exact ⟨_, rfl⟩

theorem addSchemas_eq_error {hoisted : Members} {root : Json} {error : Error}
    (h : addSchemas hoisted root = .error error) : ∃ fault, error = .parse fault := by
  rw [addSchemas.eq_def] at h
  split at h
  · refine extend_eq_error (fun h => ?_) (eq_error_of_map h)
    refine extend_eq_error (fun h => ?_) h
    simp at h
  · cases h
    exact ⟨_, rfl⟩

/-- A tree is refused for the first of its references that does not resolve. -/
theorem ofTree_eq_error {uri : String} {tree : Json} {error : Error}
    (h : Document.ofTree uri tree = .error error) :
    ∃ text ∈ tree.references, tree.resolveLocal? text = none ∧
      error = .unresolvedReference text uri := by
  unfold Document.ofTree at h
  split at h
  · next text hf =>
      cases h
      have hnone := List.find?_some hf
      exact ⟨text, List.mem_of_find?_eq_some hf, Option.isNone_iff_eq_none.mp hnone, rfl⟩
  · simp at h

/-! ## Bundling ends -/

section Bundling

variable {source : Source} {shelf : Shelf} {url : Url}

/-- The start fails as the source does, for the version of the root, or for a component that is a
reference without a URL. -/
theorem bundleStart_eq_error {error : Error} {s : Progress}
    (h : bundleStart source url { shelf } = .error error s) :
    source.document url = .error error ∨ (∃ fault, error = .unsupportedVersion fault) ∨
      ∃ root name schema text, available source shelf url = some root ∧
        (name, schema) ∈ root.componentSchemas?.getD [] ∧ schema.reference? = some text ∧
        joinReference url text = .error error := by
  rw [bundleStart_run] at h
  cases ha : available source shelf url with
  | none =>
      obtain ⟨fault, hfault, hrun⟩ := Walk.document_run_of_unavailable (s := { shelf }) ha
      rw [hrun] at h
      cases h
      exact .inl hfault
  | some root =>
      obtain ⟨shelf', hrun, _⟩ := Walk.document_run_of_available (s := { shelf }) ha
      simp only [hrun] at h
      cases hc : checkVersion root with
      | error fault =>
          rw [hc] at h
          cases h
          exact .inr (.inl (checkVersion_eq_error hc))
      | ok =>
          simp only [hc] at h
          cases hn : reserveNames url (root.componentSchemas?.getD []) [] with
          | error fault =>
              rw [hn] at h
              cases h
              obtain ⟨name, schema, text, hm, hr, hj⟩ := reserveNames_eq_error hn
              exact .inr (.inr ⟨root, name, schema, text, rfl, hm, hr, hj⟩)
          | ok names =>
              rw [hn] at h
              cases h

/-- Only the source itself can say that targets are nested too deeply before the walk starts. -/
theorem exhausted_of_bundleStart {error : Error} {s : Progress}
    (h : bundleStart source url { shelf } = .error error s) (he : error.Exhausted) :
    source.document url = .error error := by
  rcases bundleStart_eq_error h with hsource | ⟨fault, rfl⟩ | ⟨_, _, _, _, _, _, _, hj⟩
  · exact hsource
  · obtain ⟨_, heq⟩ := he
    cases heq
  · rw [joinReference_eq_error hj] at he
    exact absurd he (not_exhausted_unresolved _ _)

/-- The finish fails for want of an object to add schemas to, or for a reference that does not
resolve. -/
theorem bundleFinish_eq_error {walked : Json} {error : Error} {s s' : Progress}
    (h : bundleFinish url walked s = .error error s') :
    s' = s ∧ ((∃ fault, error = .parse fault) ∨
      ∃ bundled, assembled s.hoisted walked = .ok bundled ∧
        ∃ text ∈ bundled.references, bundled.resolveLocal? text = none ∧
          error = .unresolvedReference text url.text) := by
  rw [bundleFinish_run] at h
  split at h
  · next fault hadd =>
      cases h
      unfold assembled at hadd
      split at hadd
      · simp at hadd
      · exact ⟨rfl, .inl (addSchemas_eq_error hadd)⟩
  · next bundled hadd =>
      split at h
      · next fault hdoc =>
          cases h
          exact ⟨rfl, .inr ⟨bundled, hadd, ofTree_eq_error hdoc⟩⟩
      · simp at h

theorem settled_bundleFinish (walked : Json) (s : Progress) :
    Settled (bundleFinish url walked s) (bundleFinish url walked s) := by
  refine ⟨rfl, fun {error s'} h => ?_⟩
  obtain ⟨_, ⟨fault, rfl⟩ | ⟨_, _, _, _, _, rfl⟩⟩ := bundleFinish_eq_error h
  · rintro ⟨_, heq⟩
    cases heq
  · exact not_exhausted_unresolved _ _

/-- The walk of the root is the same with the fuel that is computed from the documents and with more.
-/
theorem settled_walk_root {entries : List (Url × Json)}
    (hfinite : ∀ {url tree}, available source shelf url = some tree → (url, tree) ∈ entries)
    (hroot : ∀ {root}, available source shelf url = some root → root.proper = true)
    (hself : ¬Library.SelfReference (available source shelf)) {fuel : Nat}
    (hfuel : fuelBound entries ≤ fuel) {root : Json} {s : Progress}
    (hstart : bundleStart source url { shelf } = .ok root s) :
    Settled
      (root.walk (replaceReference source url (fuelBound entries) url) .root .other s)
      (root.walk (replaceReference source url fuel url) .root .other s) := by
  obtain ⟨hfound, hsees, _⟩ := bundleStart_run_ok rfl hstart
  have hsound := sound_of_bundleStart (hroot hfound) hstart
  have hlater : Later source (available source shelf) s s := ⟨.refl _, hsound, hsees⟩
  refine settled_walk (fun hr h => sees_replaceReference (fuelBound entries) hr h) 0 root ?_
    (Nat.zero_le ([] : Path).length) hlater
  intro value text path position s' hr hm _ hlater
  exact settlesAmply hfinite hself (fuelBound entries) hfuel hfound hm hr hlater.sound hlater.sees
    List.countP_le_length (.inl (Nat.le_refl _))

/-- Bundling ends: whatever the references between finitely many documents are, as long as none is
its own target, fuel that is computed from the documents is never exhausted and more of it changes
nothing. -/
theorem bundleAt_eq_of_fuelBound_le {entries : List (Url × Json)}
    (hfinite : ∀ {url tree}, available source shelf url = some tree → (url, tree) ∈ entries)
    (hroot : ∀ {root}, available source shelf url = some root → root.proper = true)
    (hself : ¬Library.SelfReference (available source shelf)) {fuel : Nat}
    (hfuel : fuelBound entries ≤ fuel) :
    bundleAt source fuel url { shelf } = bundleAt source (fuelBound entries) url { shelf } ∧
      ∀ {error s}, bundleAt source fuel url { shelf } = .error error s → error.Exhausted →
        source.document url = .error error := by
  have hwalk : ∀ {root s}, bundleStart source url { shelf } = .ok root s →
      Settled
        (root.walk (replaceReference source url (fuelBound entries) url) .root .other s)
        (root.walk (replaceReference source url fuel url) .root .other s) :=
    settled_walk_root hfinite hroot hself hfuel
  rw [bundleAt_eq, bundleAt_eq, Walk.bind_run, Walk.bind_run]
  cases hstart : bundleStart source url { shelf } with
  | error fault s =>
      refine ⟨rfl, fun h he => ?_⟩
      cases h
      exact exhausted_of_bundleStart hstart he
  | ok root s =>
      have hsettled := Settled.bind (f := bundleFinish url) (g := bundleFinish url) (hwalk hstart)
        fun {walked s'} _ => settled_bundleFinish walked s'
      refine ⟨hsettled.eq.symm, fun h he => ?_⟩
      exact absurd he (hsettled.not_exhausted (hsettled.eq.trans h))

end Bundling

/-- A root and a document whose schemas refer to each other: the component `A` is an alias for a
reference to `B`, which is a reference back to `A`. -/
def cyclicShelf : Shelf :=
  [(⟨"mem", some {}, .segments ["root"], none, none⟩,
    .object [("openapi", .string "3.0.0"),
      ("components", .object [("schemas",
        .object [("A", .object [("$ref", .string "e#/definitions/A")])])])]),
   (⟨"mem", some {}, .segments ["e"], none, none⟩,
    .object [("definitions", .object [("A", .object [("$ref", .string "#/definitions/B")]),
      ("B", .object [("$ref", .string "#/definitions/A")])])])]

/-- The bundling of the cyclic documents ends with the fuel that is computed for them. -/
theorem bundleAt_cyclicShelf :
    fuelBound cyclicShelf = 8 ∧
      bundleAt .empty 100 ⟨"mem", some {}, .segments ["root"], none, none⟩ { shelf := cyclicShelf }
        = bundleAt .empty (fuelBound cyclicShelf) ⟨"mem", some {}, .segments ["root"], none, none⟩
          { shelf := cyclicShelf } := by
  have hbound : fuelBound cyclicShelf = 8 := rfl
  have hproper : ∀ entry ∈ cyclicShelf, entry.2.proper = true := by decide
  refine ⟨hbound, (bundleAt_eq_of_fuelBound_le mem_of_available_empty ?_ ?_ ?_).1⟩
  · exact fun hroot => hproper _ (mem_of_available_empty hroot)
  · exact not_selfReference_of_free mem_of_available_empty rfl
  · rw [hbound]
    decide

end OpenApi
