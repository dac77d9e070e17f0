import OpenApi.Proofs.Bundle.Run

/-!
# Bundling a document, stage by stage

Bundling reads the root and reserves the names of its components, walks the root, and puts what was
hoisted beside what was walked. Only the walk takes fuel. `bundleAt_eq` is that cut and
`bundle_stages` reads a successful run back from it.
-/

namespace OpenApi

/-- Reads the root document and sets up the tables for it. -/
def bundleStart (source : Source) (url : Url) : Walk Json := do
  let root ← Walk.document source url
  Walk.ofExcept (checkVersion root)
  let declared := root.componentSchemas?.getD []
  let names ← Walk.ofExcept (reserveNames url declared [])
  modify fun progress => { progress with names, taken := declared.names }
  return root

/-- Puts together what was walked and what was hoisted. -/
def bundleFinish (url : Url) (walked : Json) : Walk Document := do
  let hoisted := (← get).hoisted
  let bundled ← if hoisted.isEmpty then pure walked else Walk.ofExcept (addSchemas hoisted walked)
  Walk.ofExcept (Document.ofTree url.text bundled)

/-- Bundling is a walk between a start and a finish that take no fuel. -/
theorem bundleAt_eq (source : Source) (fuel : Nat) (url : Url) :
    bundleAt source fuel url =
      bundleStart source url >>= fun root =>
        root.walk (replaceReference source url fuel url) .root .other >>= fun walked =>
          bundleFinish url walked := by
  simp only [bundleAt, bundleStart, bundleFinish, bind_assoc, pure_bind]

/-! ## The tables at the start -/

/-- The component `name` of a root document is a reference to `target`, in another document. -/
def Alias (rootUrl : Url) (declared : Members) (target : Url) (name : String) : Prop :=
  ∃ schema text, (name, schema) ∈ declared ∧ schema.reference? = some text ∧
    joinReference rootUrl text = .ok target ∧ target.document ≠ rootUrl

theorem Alias.cons {rootUrl target : Url} {declared : Members} {name : String}
    (entry : String × Json) (h : Alias rootUrl declared target name) :
    Alias rootUrl (entry :: declared) target name := by
  obtain ⟨schema, text, hm, hrest⟩ := h
  exact ⟨schema, text, List.mem_cons_of_mem _ hm, hrest⟩

theorem reserveNames_cons (rootUrl : Url) (entry : String × Json) (rest : Members)
    (names : List (Url × String)) :
    reserveNames rootUrl (entry :: rest) names =
      match reserveNames rootUrl [entry] names with
      | .ok names' => reserveNames rootUrl rest names'
      | .error error => .error error := by
  obtain ⟨name, schema⟩ := entry
  simp only [reserveNames]
  cases schema.reference? with
  | none => rfl
  | some text =>
      dsimp only
      cases joinReference rootUrl text with
      | error error => rfl
      | ok target =>
          dsimp only
          split <;> rfl

/-- A component reserves its name, if it is a reference to another document whose target has none yet,
or does nothing. -/
theorem reserveNames_singleton {rootUrl : Url} {name : String} {schema : Json}
    {names names' : List (Url × String)}
    (h : reserveNames rootUrl [(name, schema)] names = .ok names') :
    names' = names ∨
      ∃ text target, schema.reference? = some text ∧ joinReference rootUrl text = .ok target ∧
        target.document ≠ rootUrl ∧ names.lookup target = none ∧
        names' = names ++ [(target, name)] := by
  simp only [reserveNames] at h
  cases hr : schema.reference? with
  | none =>
      rw [hr] at h
      cases h
      exact .inl rfl
  | some text =>
      cases hj : joinReference rootUrl text with
      | error error =>
          simp only [hr, hj] at h
          simp at h
      | ok target =>
          simp only [hr, hj] at h
          split at h
          · next hc =>
              cases h
              exact .inr ⟨text, target, rfl, hj, hc.1, Option.isNone_iff_eq_none.mp hc.2, rfl⟩
          · cases h
            exact .inl rfl

/-- The names that are reserved are those of aliases, in order and each once. -/
theorem reserveNames_eq_append {rootUrl : Url} {declared : Members}
    {names names' : List (Url × String)} (h : reserveNames rootUrl declared names = .ok names') :
    ∃ new, names' = names ++ new ∧ (new.map Prod.snd).Sublist declared.names ∧
      ∀ entry ∈ new, Alias rootUrl declared entry.1 entry.2 := by
  induction declared generalizing names with
  | nil =>
      unfold reserveNames at h
      cases h
      exact ⟨[], (List.append_nil _).symm, List.nil_sublist _, List.forall_mem_nil _⟩
  | cons entry rest ih =>
      obtain ⟨name, schema⟩ := entry
      rw [reserveNames_cons] at h
      split at h
      · next names₁ hone =>
          obtain ⟨new, rfl, hsub, halias⟩ := ih h
          have hrest : ∀ entry ∈ new, Alias rootUrl ((name, schema) :: rest) entry.1 entry.2 :=
            fun entry hm => (halias entry hm).cons _
          rcases reserveNames_singleton hone with rfl | ⟨text, target, hr, hj, hd, _, rfl⟩
          · exact ⟨new, rfl, hsub.cons _, hrest⟩
          · refine ⟨(target, name) :: new, by rw [List.append_assoc, List.singleton_append],
              hsub.cons_cons name, List.forall_mem_cons.mpr ⟨?_, hrest⟩⟩
            exact ⟨schema, text, List.mem_cons_self, hr, hj, hd⟩
      · simp at h

/-- The start reads the root, checks its version and reserves names, in that order, and sets up the
tables only if all of this succeeds. -/
theorem bundleStart_run (source : Source) (url : Url) (s : Progress) :
    bundleStart source url s =
      match Walk.document source url s with
      | .error error s' => .error error s'
      | .ok root s' =>
        match checkVersion root with
        | .error error => .error error s'
        | .ok _ =>
          match reserveNames url (root.componentSchemas?.getD []) [] with
          | .error error => .error error s'
          | .ok names =>
            .ok root { s' with names, taken := (root.componentSchemas?.getD []).names } := by
  rw [bundleStart, Walk.bind_run]
  cases Walk.document source url s with
  | error error s' => rfl
  | ok root s' =>
      simp only [Walk.bind_run, Walk.ofExcept_run]
      cases checkVersion root with
      | error error => rfl
      | ok => cases reserveNames url (root.componentSchemas?.getD []) [] <;> rfl

/-- The start finds the root, accepts its version, and leaves consistent tables that hold just the
names of its components. -/
theorem bundleStart_run_ok {source : Source} {docs : Library} {url : Url} {shelf : Shelf}
    {root : Json} {s : Progress} (hd : available source shelf = docs)
    (h : bundleStart source url { shelf } = .ok root s) :
    docs url = some root ∧ available source s.shelf = docs ∧ checkVersion root = .ok () ∧
      s.hoisted = [] ∧ s.places = [] ∧ s.taken = (root.componentSchemas?.getD []).names ∧
      reserveNames url (root.componentSchemas?.getD []) [] = .ok s.names := by
  subst hd
  rw [bundleStart_run] at h
  cases ha : available source shelf url with
  | none =>
      obtain ⟨error, _, hrun⟩ := Walk.document_run_of_unavailable (s := { shelf }) ha
      rw [hrun] at h
      simp at h
  | some found =>
      obtain ⟨shelf', hrun, hsame⟩ := Walk.document_run_of_available (s := { shelf }) ha
      simp only [hrun] at h
      cases hc : checkVersion found with
      | error error =>
          rw [hc] at h
          simp at h
      | ok =>
          cases hn : reserveNames url (found.componentSchemas?.getD []) [] with
          | error error =>
              rw [hc, hn] at h
              simp at h
          | ok names =>
              rw [hc, hn] at h
              cases h
              exact ⟨rfl, hsame, hc, rfl, rfl, rfl, hn⟩

/-- The component schemas of a tree are the object at their path. -/
theorem Json.componentSchemas?_eq_some_iff {tree : Json} {members : Members} :
    tree.componentSchemas? = some members ↔
      tree.at? [.member "components", .member "schemas"] = some (object members) := by
  rw [componentSchemas?, at?_cons, member?_eq_step?]
  cases tree.step? (.member "components") with
  | none => simp
  | some components =>
      rw [Option.bind_some, Option.bind_some, at?_cons, member?_eq_step?]
      cases components.step? (.member "schemas") with
      | none => simp
      | some schemas =>
          rw [Option.bind_some, Option.bind_some, at?_nil]
          cases schemas with
          | object found => simp [asObject?]
          | _ => simp [asObject?]

/-- The references of a component schema are references of the tree. -/
theorem references_subset_of_mem_componentSchemas {tree schema : Json} {name : String}
    (hm : (name, schema) ∈ tree.componentSchemas?.getD []) : schema.references ⊆ tree.references := by
  cases hdeclared : tree.componentSchemas? with
  | none =>
      rw [hdeclared] at hm
      simp at hm
  | some declared =>
      rw [hdeclared] at hm
      exact List.Subset.trans (Json.references_subset_of_mem_object hm)
        (Json.references_subset_of_at? (Json.componentSchemas?_eq_some_iff.mp hdeclared))

theorem names_nodup_componentSchemas {tree : Json} (ht : tree.proper = true) :
    (tree.componentSchemas?.getD []).names.Nodup := by
  cases h : tree.componentSchemas? with
  | none => exact List.nodup_nil
  | some members =>
      have hproper := Json.proper_of_at? ht (Json.componentSchemas?_eq_some_iff.mp h)
      exact (Json.proper_object_iff.mp hproper).1

/-- Tables that hold just the names of the components are consistent, since none of these is repeated.
-/
theorem sound_of_reserveNames {url : Url} {root : Json} {s : Progress} (hroot : root.proper = true)
    (hh : s.hoisted = []) (ht : s.taken = (root.componentSchemas?.getD []).names)
    (hn : reserveNames url (root.componentSchemas?.getD []) [] = .ok s.names) : s.Sound := by
  obtain ⟨new, heq, hsub, _⟩ := reserveNames_eq_append hn
  rw [List.nil_append] at heq
  subst heq
  -- the reserved names are declared ones, each of them once
  refine ⟨fun ha hb => ?_, fun hl => ?_, fun hl => ?_⟩
  · exact key_eq_of_mem (hsub.nodup (names_nodup_componentSchemas hroot)) (mem_of_lookup ha)
      (mem_of_lookup hb)
  · rw [ht]
    exact hsub.subset (List.mem_map_of_mem (mem_of_lookup hl))
  · rw [hh] at hl
    simp at hl

/-- The tables at the start are consistent. -/
theorem sound_of_bundleStart {source : Source} {url : Url} {shelf : Shelf} {root : Json}
    {s : Progress} (hroot : root.proper = true)
    (h : bundleStart source url { shelf } = .ok root s) : s.Sound := by
  obtain ⟨_, _, _, hh, _, ht, hn⟩ := bundleStart_run_ok rfl h
  exact sound_of_reserveNames hroot hh ht hn

/-! ## A successful bundling -/

/-- What is bundled in the end. -/
def assembled (hoisted : Members) (walked : Json) : Except Error Json :=
  if hoisted.isEmpty then .ok walked else addSchemas hoisted walked

/-- The stages of a bundling up to the walk: the root was read, its components reserved, and the root
walked. -/
structure Walked (docs : Library) (url : Url) (root walked : Json) (start finish : Progress) :
    Prop where
  found : docs url = some root
  version : checkVersion root = .ok ()
  /-- Before the walk nothing was hoisted. -/
  hoisted : start.hoisted = []
  /-- Before the walk nothing has a place. -/
  places : start.places = []
  taken : start.taken = (root.componentSchemas?.getD []).names
  names : reserveNames url (root.componentSchemas?.getD []) [] = .ok start.names
  runs : Runs docs url url [] .other (.value root) start (.value walked) finish

/-- The tables before the walk are consistent. -/
theorem Walked.sound {docs : Library} {url : Url} {root walked : Json} {start finish : Progress}
    (hb : Walked docs url root walked start finish) (hroot : root.proper = true) : start.Sound :=
  sound_of_reserveNames hroot hb.hoisted hb.taken hb.names

/-- The stages of a bundling up to the check of its references. -/
structure Assembled (docs : Library) (url : Url) (bundled root walked : Json)
    (start finish : Progress) : Prop extends Walked docs url root walked start finish where
  /-- What was hoisted is added to what was walked. -/
  assembled : assembled finish.hoisted walked = .ok bundled

/-- The stages of a successful bundling. -/
structure Bundled (docs : Library) (url : Url) (document : Document) (root walked : Json)
    (start finish : Progress) : Prop
    extends Assembled docs url document.root root walked start finish where
  /-- Every reference of the result resolves in it. -/
  closed : ∀ text ∈ document.root.references, (document.root.resolveLocal? text).isSome = true

theorem Document.ofTree_eq_ok {uri : String} {tree : Json} {document : Document}
    (h : Document.ofTree uri tree = .ok document) :
    document.root = tree ∧
      ∀ text ∈ tree.references, (tree.resolveLocal? text).isSome = true := by
  unfold ofTree at h
  split at h
  · simp at h
  · next hf =>
      cases h
      refine ⟨rfl, fun text hm => ?_⟩
      have := List.find?_eq_none.mp hf text hm
      cases hl : tree.resolveLocal? text with
      | none => simp [hl] at this
      | some node => rfl

theorem Document.ofTree_of_closed {uri : String} {tree : Json}
    (h : ∀ text ∈ tree.references, (tree.resolveLocal? text).isSome = true) :
    Document.ofTree uri tree = .ok ⟨uri, tree⟩ := by
  have hnone : tree.references.find? (fun text => (tree.resolveLocal? text).isNone) = none := by
    rw [List.find?_eq_none]
    intro text hm
    rw [← Option.not_isSome, h text hm]
    decide
  rw [ofTree, hnone]

theorem bundleFinish_run (url : Url) (walked : Json) (s : Progress) :
    bundleFinish url walked s =
      match assembled s.hoisted walked with
      | .error error => .error error s
      | .ok bundled =>
        match Document.ofTree url.text bundled with
        | .error error => .error error s
        | .ok document => .ok document s := by
  rw [bundleFinish, Walk.bind_run, Walk.get_run, assembled]
  dsimp only
  by_cases he : s.hoisted.isEmpty
  · rw [if_pos he, if_pos he, Walk.bind_run, Walk.pure_run]
    dsimp only
    rw [Walk.ofExcept_run]
    cases Document.ofTree url.text walked <;> rfl
  · rw [if_neg he, if_neg he, Walk.bind_run, Walk.ofExcept_run]
    cases addSchemas s.hoisted walked with
    | error error => rfl
    | ok bundled =>
        dsimp only
        rw [Walk.ofExcept_run]
        cases Document.ofTree url.text bundled <;> rfl

/-- The URL of the root in small sets of documents. -/
def rootUrl : Url := ⟨"mem", some {}, .segments ["r"], none, none⟩

/-- Whether bundling succeeds with a document and tables that pass a check. -/
def bundlesTo (source : Source) (fuel : Nat) (url : Url) (shelf : Shelf)
    (check : Document → Progress → Bool) : Bool :=
  match bundleAt source fuel url { shelf } with
  | .ok document finish => check document finish
  | .error _ _ => false

theorem exists_of_bundlesTo {source : Source} {fuel : Nat} {url : Url} {shelf : Shelf}
    {check : Document → Progress → Bool} (h : bundlesTo source fuel url shelf check = true) :
    ∃ document finish, bundleAt source fuel url { shelf } = .ok document finish ∧
      check document finish = true := by
  unfold bundlesTo at h
  split at h
  · next document finish hrun => exact ⟨document, finish, hrun, h⟩
  · simp at h

/-- Whether the walk of the root succeeds with a value that passes a check. -/
def walksTo (source : Source) (fuel : Nat) (url : Url) (shelf : Shelf) (check : Json → Bool) : Bool :=
  match bundleStart source url { shelf } with
  | .error _ _ => false
  | .ok root start =>
    match root.walk (replaceReference source url fuel url) .root .other start with
    | .ok walked _ => check walked
    | .error _ _ => false

theorem exists_of_walksTo {source : Source} {fuel : Nat} {url : Url} {shelf : Shelf}
    {check : Json → Bool} (h : walksTo source fuel url shelf check = true) :
    ∃ root start walked finish, bundleStart source url { shelf } = .ok root start ∧
      root.walk (replaceReference source url fuel url) .root .other start = .ok walked finish ∧
      check walked = true := by
  unfold walksTo at h
  split at h
  · simp at h
  · next root start hstart =>
      split at h
      · next walked finish hwalk => exact ⟨root, start, walked, finish, hstart, hwalk, h⟩
      · simp at h

section

variable {source : Source} {docs : Library} {fuel : Nat} {url : Url} {shelf : Shelf}
  {root walked : Json} {start finish : Progress}

/-- A start and a walk are the first stages of a bundling. -/
theorem walked_of_walk (hd : available source shelf = docs)
    (hstart : bundleStart source url { shelf } = .ok root start)
    (hwalk : root.walk (replaceReference source url fuel url) .root .other start
      = .ok walked finish) : Walked docs url root walked start finish := by
  obtain ⟨hroot, hsees, hversion, hh, hp, ht, hn⟩ := bundleStart_run_ok hd hstart
  have hruns : Runs docs url url [] .other (.value root) start (.value walked) finish :=
    runs_of_walk hsees hwalk
  exact ⟨hroot, hversion, hh, hp, ht, hn, hruns⟩

/-- A successful bundling has walked the root between its start and its finish. -/
theorem bundle_walk {document : Document} (hd : available source shelf = docs)
    (h : bundleAt source fuel url { shelf } = .ok document finish) :
    ∃ root walked start, bundleStart source url { shelf } = .ok root start ∧
      root.walk (replaceReference source url fuel url) .root .other start = .ok walked finish ∧
      Bundled docs url document root walked start finish := by
  rw [bundleAt_eq, Walk.bind_run] at h
  split at h
  · next root start hstart =>
      rw [Walk.bind_run] at h
      split at h
      · next walked s hwalk =>
          rw [bundleFinish_run] at h
          split at h
          · simp at h
          · next bundled hadd =>
              split at h
              · simp at h
              · next found hdoc =>
                  cases h
                  obtain ⟨heq, hclosed⟩ := Document.ofTree_eq_ok hdoc
                  rw [← heq] at hadd hclosed
                  exact ⟨root, walked, start, hstart, hwalk,
                    ⟨walked_of_walk hd hstart hwalk, hadd⟩, hclosed⟩
      · simp at h
  · simp at h

/-- Bundling succeeds if its start and its walk do, what was hoisted can be added, and every reference
of the result resolves in it. -/
theorem bundleAt_eq_ok {bundled : Json} (hstart : bundleStart source url { shelf } = .ok root start)
    (hwalk : root.walk (replaceReference source url fuel url) .root .other start
      = .ok walked finish)
    (hadd : assembled finish.hoisted walked = .ok bundled)
    (hclosed : ∀ text ∈ bundled.references, (bundled.resolveLocal? text).isSome = true) :
    bundleAt source fuel url { shelf } = .ok ⟨url.text, bundled⟩ finish := by
  rw [bundleAt_eq, Walk.bind_run_ok hstart, Walk.bind_run_ok hwalk, bundleFinish_run, hadd]
  dsimp only
  rw [Document.ofTree_of_closed hclosed]

/-- A successful bundling goes through its stages. -/
theorem bundle_stages {document : Document} (hd : available source shelf = docs)
    (h : bundleAt source fuel url { shelf } = .ok document finish) :
    ∃ root walked start, Bundled docs url document root walked start finish ∧
      bundleStart source url { shelf } = .ok root start := by
  obtain ⟨root, walked, start, hstart, _, hb⟩ := bundle_walk hd h
  exact ⟨root, walked, start, hb, hstart⟩

end

end OpenApi
