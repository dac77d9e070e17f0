import OpenApi.Bundle.Loader
import OpenApi.Proofs.Bundle.Whole

/-!
# The shelf of a loader is a mere cache

A loader keeps what it fetched, and a walk that fails midway leaves what it fetched until then. None
of this can be told from the answers: `Loader.effective` is the document at a URL as the loader would
find it, or the error that it would meet, and bundling neither changes it nor depends on anything
else. Of the URLs only those without a fragment count, since no others are read.

The proof compares two runs. `Loader.Twins` are two progresses that differ in the shelf only, each
shelf being that of a loader with documents from its source put on it. `Loader.Agree` says of two
walks that they take twins to twins, with the same value or the same error. It is kept by each way of
composing walks, so the walk of a tree needs one induction, and the bundler one more on its fuel.
That no document on a shelf is replaced is the case of a run and itself.
-/

namespace OpenApi

/-! ## Effective documents -/

namespace Loader

/-- The document at a URL: the one on the shelf, or else what the source says. -/
def effective (loader : Loader) (url : Url) : Except Error Json :=
  match loader.shelf.lookup url with
  | some tree => .ok tree
  | none => loader.source.document url

/-- The loader with another shelf. -/
def withShelf (loader : Loader) (shelf : Shelf) : Loader := { loader with shelf }

variable {loader loader' : Loader} {shelf shelf' : Shelf} {url : Url} {tree : Json}

/-- A document put on the shelf is the one found at its URL, and at no other. -/
theorem effective_put (loader : Loader) (shelf : Shelf) (url : Url) (tree : Json) (other : Url) :
    (loader.withShelf (shelf.put url tree)).effective other
      = if other = url then .ok tree else (loader.withShelf shelf).effective other := by
  rw [effective, withShelf, Shelf.lookup_put]
  by_cases h : other = url
  · rw [if_pos h, if_pos h]
  · rw [if_neg h, if_neg h]
    rfl

/-- The shelf is that of the loader with documents from its source put on it, each where none was. -/
inductive Fetched (loader : Loader) : Shelf → Prop where
  | nothing : Fetched loader loader.shelf
  | put {shelf : Shelf} {url : Url} {tree : Json} (h : Fetched loader shelf)
      (hl : shelf.lookup url = none) (hd : loader.source.document url = .ok tree) :
      Fetched loader (shelf.put url tree)

theorem Fetched.effective_eq (h : loader.Fetched shelf) :
    (loader.withShelf shelf).effective = loader.effective := by
  induction h with
  | nothing => rfl
  | @put shelf url tree _ hl hd ih =>
      funext other
      rw [effective_put]
      by_cases ho : other = url
      · rw [if_pos ho, ← ih, effective, withShelf, ho, hl]
        exact hd.symm
      · rw [if_neg ho, ih]

/-- A document on the shelf is never replaced. -/
theorem Fetched.lookup (h : loader.Fetched shelf) (hl : loader.shelf.lookup url = some tree) :
    shelf.lookup url = some tree := by
  induction h with
  | nothing => exact hl
  | @put shelf other fetched _ hnone _ ih =>
      rw [Shelf.lookup_put, if_neg]
      · exact ih
      · rintro rfl
        cases hnone.symm.trans ih

/-- Reading a document finds the effective one, or fails with its error, and fetches at most it. -/
theorem Fetched.document_run {s : Progress} (h : loader.Fetched s.shelf) (url : Url) :
    ∃ shelf, loader.Fetched shelf ∧
      Walk.document loader.source url s =
        match loader.effective url with
        | .ok tree => .ok tree (s.withShelf shelf)
        | .error error => .error error (s.withShelf shelf) := by
  rw [Walk.document_run, ← h.effective_eq, effective, withShelf]
  dsimp only
  cases hl : s.shelf.lookup url with
  | some tree => exact ⟨s.shelf, h, rfl⟩
  | none =>
      cases hd : loader.source.document url with
      | error error => exact ⟨s.shelf, h, rfl⟩
      | ok tree => exact ⟨s.shelf.put url tree, h.put hl hd, rfl⟩

/-! ## Two runs -/

/-- Two progresses differ in the shelf only, which each loader has from fetching. -/
inductive Twins (loader loader' : Loader) : Progress → Progress → Prop where
  | intro {s : Progress} {shelf' : Shelf} (h : loader.Fetched s.shelf) (h' : loader'.Fetched shelf') :
      Twins loader loader' s (s.withShelf shelf')

variable {α β : Type}

/-- Two runs come to the same value or the same error, and leave twins. -/
inductive Same (loader loader' : Loader) :
    EStateM.Result Error Progress α → EStateM.Result Error Progress α → Prop where
  | ok {a s s'} (h : Twins loader loader' s s') : Same loader loader' (.ok a s) (.ok a s')
  | error {error s s'} (h : Twins loader loader' s s') :
      Same loader loader' (.error error s) (.error error s')

/-- Two walks come to the same from twins. -/
def Agree (loader loader' : Loader) (x x' : Walk α) : Prop :=
  ∀ s s', Twins loader loader' s s' → Same loader loader' (x s) (x' s')

theorem agree_pure (a : α) : Agree loader loader' (pure a) (pure a) :=
  fun _ _ h => .ok h

theorem agree_throw (error : Error) : Agree loader loader' (throw error : Walk α) (throw error) :=
  fun _ _ h => .error h

theorem agree_ofExcept (x : Except Error α) :
    Agree loader loader' (Walk.ofExcept x) (Walk.ofExcept x) := by
  cases x with
  | error error => exact agree_throw error
  | ok a => exact agree_pure a

theorem Agree.bind {x x' : Walk α} {f f' : α → Walk β} (hx : Agree loader loader' x x')
    (hf : ∀ a, Agree loader loader' (f a) (f' a)) :
    Agree loader loader' (x >>= f) (x' >>= f') := by
  intro s s' h
  have hsame := hx s s' h
  rw [Walk.bind_run, Walk.bind_run]
  generalize x s = r, x' s' = r' at hsame ⊢
  cases hsame with
  | ok h => exact hf _ _ _ h
  | error h => exact .error h

theorem Agree.map {x x' : Walk α} (hx : Agree loader loader' x x') (f : α → β) :
    Agree loader loader' (f <$> x) (f <$> x') := by
  rw [← bind_pure_comp, ← bind_pure_comp]
  exact hx.bind fun a => agree_pure (f a)

theorem Agree.tryCatch {x x' : Walk α} {handle handle' : Error → Walk α}
    (hx : Agree loader loader' x x')
    (hh : ∀ error, Agree loader loader' (handle error) (handle' error)) :
    Agree loader loader' (tryCatch x handle) (tryCatch x' handle') := by
  intro s s' h
  have hsame := hx s s' h
  rw [Walk.tryCatch_run, Walk.tryCatch_run]
  generalize x s = r, x' s' = r' at hsame ⊢
  cases hsame with
  | ok h => exact .ok h
  | error h => exact hh _ _ _ h

section

-- what stands at a URL with a fragment is never read
variable (he : ∀ {url : Url}, url.fragment = none → loader'.effective url = loader.effective url)
include he

/-- Two loaders with the same effective documents read the same. -/
theorem agree_document {url : Url} (hf : url.fragment = none) :
    Agree loader loader' (Walk.document loader.source url) (Walk.document loader'.source url) := by
  rintro s _ @⟨shelf', hs, hs'⟩
  obtain ⟨after, hafter, hrun⟩ := hs.document_run url
  obtain ⟨after', hafter', hrun'⟩ := Fetched.document_run (s := s.withShelf shelf') hs' url
  rw [hrun, hrun', he hf]
  cases loader.effective url with
  | error error => exact .error (.intro hafter hafter')
  | ok tree => exact .ok (.intro hafter hafter')

theorem agree_target (base : Url) {url : Url} (hf : url.fragment = none) (fragment text : String) :
    Agree loader loader' (Walk.target loader.source base url fragment text)
      (Walk.target loader'.source base url fragment text) := by
  unfold Walk.target
  refine (((agree_document he hf).map some).tryCatch fun _ => agree_pure none).bind fun tree => ?_
  cases tree.bind (·.resolve? fragment) with
  | none => exact agree_throw _
  | some node => exact agree_pure node

end

section Walks

variable {onReference onReference' : OnReference}

/-- Two ways of replacing references come to the same at every one. -/
def AgreeAt (loader loader' : Loader) (onReference onReference' : OnReference) : Prop :=
  ∀ value text pointer position,
    Agree loader loader' (onReference value text pointer position)
      (onReference' value text pointer position)

mutual

theorem agree_walk (hr : AgreeAt loader loader' onReference onReference') (value : Json)
    (pointer : Pointer) (position : Position) :
    Agree loader loader' (value.walk onReference pointer position)
      (value.walk onReference' pointer position) := by
  cases value with
  | object members =>
      cases href : (Json.object members).reference? with
      | some text =>
          rw [Json.walk_reference href, Json.walk_reference href]
          exact hr _ text pointer position
      | none =>
          rw [Json.walk_object href, Json.walk_object href]
          exact (agree_walkMembers hr members pointer position).map _
  | array items =>
      rw [Json.walk_array, Json.walk_array]
      exact (agree_walkItems hr items pointer position.item 0).map _
  | _ =>
      rw [Json.walk_scalar rfl, Json.walk_scalar rfl]
      exact agree_pure _

theorem agree_walkItems (hr : AgreeAt loader loader' onReference onReference')
    (items : List Json) (pointer : Pointer) (position : Position) (index : Nat) :
    Agree loader loader' (Json.walkItems onReference pointer position index items)
      (Json.walkItems onReference' pointer position index items) := by
  cases items with
  | nil =>
      unfold Json.walkItems
      exact agree_pure _
  | cons item rest =>
      rw [Json.walkItems, Json.walkItems]
      exact (agree_walk hr item _ position).bind fun item =>
        (agree_walkItems hr rest pointer position (index + 1)).bind fun rest => agree_pure _

theorem agree_walkMembers (hr : AgreeAt loader loader' onReference onReference')
    (members : List (String × Json)) (pointer : Pointer) (position : Position) :
    Agree loader loader' (Json.walkMembers onReference pointer position members)
      (Json.walkMembers onReference' pointer position members) := by
  cases members with
  | nil =>
      unfold Json.walkMembers
      exact agree_pure _
  | cons entry rest =>
      obtain ⟨name, value⟩ := entry
      rw [Json.walkMembers, Json.walkMembers]
      exact (agree_walk hr value _ _).bind fun value =>
        (agree_walkMembers hr rest pointer position).bind fun rest => agree_pure _

end

end Walks

theorem agree_bundleFinish (url : Url) (walked : Json) :
    Agree loader loader' (bundleFinish url walked) (bundleFinish url walked) := by
  rintro s _ @⟨shelf', h, h'⟩
  rw [bundleFinish_run, bundleFinish_run]
  have hhoisted : (s.withShelf shelf').hoisted = s.hoisted := rfl
  rw [hhoisted]
  cases assembled s.hoisted walked with
  | error error => exact .error (.intro h h')
  | ok bundled =>
      dsimp only
      cases Document.ofTree url.text bundled with
      | error error => exact .error (.intro h h')
      | ok document => exact .ok (.intro h h')

section Bundler

variable (he : ∀ {url : Url}, url.fragment = none → loader'.effective url = loader.effective url)
include he

/-- The decision about a reference is made on the tables, and what it takes in is read the same. -/
theorem agree_replaceReference (rootUrl : Url) (fuel : Nat) (base : Url) :
    AgreeAt loader loader' (replaceReference loader.source rootUrl fuel base)
      (replaceReference loader'.source rootUrl fuel base) := by
  induction fuel generalizing base with
  | zero =>
      intro value text pointer position
      unfold replaceReference
      exact agree_throw _
  | succ fuel ih =>
      intro value text pointer position
      have htake : ∀ target pointer position,
          Agree loader loader' (takeIn loader.source rootUrl fuel base target text pointer position)
            (takeIn loader'.source rootUrl fuel base target text pointer position) := by
        intro target pointer position
        unfold takeIn
        exact (agree_target he base rfl _ text).bind fun node =>
          agree_walk (ih target.document) node pointer position
      rintro s _ @⟨shelf', hs, hs'⟩
      rw [replaceReference_run, replaceReference_run]
      cases joinReference base text with
      | error error => exact .error (.intro hs hs')
      | ok target =>
          dsimp only
          have hverdict : verdict rootUrl target pointer position (s.withShelf shelf')
              = verdict rootUrl target pointer position s := rfl
          rw [hverdict]
          cases verdict rootUrl target pointer position s with
          | link new => exact .ok (.intro hs hs')
          | inline => exact htake target pointer _ _ _ (.intro hs hs')
          | hoist wanted =>
              have hsame : Same loader loader'
                  (takeIn loader.source rootUrl fuel base target text
                    (Pointer.home (Walk.freeName s.taken wanted)) .schema
                    (s.withName target (Walk.freeName s.taken wanted)))
                  (takeIn loader'.source rootUrl fuel base target text
                    (Pointer.home (Walk.freeName s.taken wanted)) .schema
                    ((s.withShelf shelf').withName target (Walk.freeName s.taken wanted))) :=
                htake target _ .schema _ _ (.intro hs hs')
              have htaken : (s.withShelf shelf').taken = s.taken := rfl
              dsimp only
              rw [htaken]
              generalize takeIn loader.source rootUrl fuel base target text _ _ _ = r,
                takeIn loader'.source rootUrl fuel base target text _ _ _ = r' at hsame ⊢
              rcases hsame with ⟨⟨h, h'⟩⟩ | ⟨⟨h, h'⟩⟩
              · exact .ok (.intro h h')
              · exact .error (.intro h h')

theorem agree_bundleStart {url : Url} (hf : url.fragment = none) :
    Agree loader loader' (bundleStart loader.source url) (bundleStart loader'.source url) := by
  unfold bundleStart
  refine (agree_document he hf).bind fun root => (agree_ofExcept _).bind fun _ => ?_
  refine (agree_ofExcept _).bind fun names => ?_
  rintro s _ ⟨h, h'⟩
  exact .ok (.intro h h')

theorem agree_bundleAt (fuel : Nat) {url : Url} (hf : url.fragment = none) :
    Agree loader loader' (bundleAt loader.source fuel url) (bundleAt loader'.source fuel url) := by
  rw [bundleAt_eq, bundleAt_eq]
  exact (agree_bundleStart he hf).bind fun root =>
    (agree_walk (agree_replaceReference he url fuel url) root .root .other).bind fun walked =>
      agree_bundleFinish url walked

end Bundler

/-! ## Bundling -/

/-- Two loaders find the same documents and bundle to the same depth. -/
structure SameView (loader loader' : Loader) : Prop where
  effective : loader'.effective = loader.effective
  depth : loader'.depth = loader.depth

theorem SameView.refl (loader : Loader) : SameView loader loader := ⟨rfl, rfl⟩

/-- Loaders that find the same wherever there is no fragment bundle to the same outcome, and fetch at
most. -/
theorem exists_bundle_eq (hd : loader'.depth = loader.depth)
    (he : ∀ {url : Url}, url.fragment = none → loader'.effective url = loader.effective url)
    (uri : String) :
    ∃ outcome shelf shelf', loader.Fetched shelf ∧ loader'.Fetched shelf' ∧
      loader.bundle uri = (outcome, loader.withShelf shelf) ∧
      loader'.bundle uri = (outcome, loader'.withShelf shelf') := by
  unfold Loader.bundle
  cases identify uri with
  | error error => exact ⟨_, _, _, .nothing, .nothing, rfl, rfl⟩
  | ok url =>
      have hbare : url.document.fragment = none := rfl
      have hsame := agree_bundleAt he loader.depth hbare { shelf := loader.shelf }
        { shelf := loader'.shelf } (.intro .nothing .nothing)
      obtain ⟨source', shelf', depth'⟩ := loader'
      change depth' = loader.depth at hd
      subst hd
      dsimp only at hsame ⊢
      generalize bundleAt loader.source loader.depth url.document _ = r,
        bundleAt source' loader.depth url.document _ = r' at hsame ⊢
      rcases hsame with ⟨⟨hs, hs'⟩⟩ | ⟨⟨hs, hs'⟩⟩
      · exact ⟨_, _, _, hs, hs', rfl, rfl⟩
      · exact ⟨_, _, _, hs, hs', rfl, rfl⟩

theorem SameView.bundle (h : SameView loader loader') (uri : String) :
    ∃ outcome shelf shelf', loader.Fetched shelf ∧ loader'.Fetched shelf' ∧
      loader.bundle uri = (outcome, loader.withShelf shelf) ∧
      loader'.bundle uri = (outcome, loader'.withShelf shelf') :=
  exists_bundle_eq h.depth (fun _ => by rw [h.effective]) uri

theorem Fetched.sameView (h : loader.Fetched shelf) : SameView loader (loader.withShelf shelf) :=
  ⟨h.effective_eq, rfl⟩

/-- A bundling leaves the loader with what it fetched. -/
theorem bundle_fetched (loader : Loader) (uri : String) :
    ∃ shelf, loader.Fetched shelf ∧ (loader.bundle uri).2 = loader.withShelf shelf := by
  obtain ⟨outcome, shelf, _, hs, _, heq, _⟩ := (SameView.refl loader).bundle uri
  exact ⟨shelf, hs, by rw [heq]⟩

end Loader

/-! ## Histories -/

/-- What is asked of a loader. -/
inductive Command where
  | register (uri : String) (tree : Json)
  | registerText (uri text : String)
  | bundle (uri : String)
  | bundleFile (path : String)

namespace Command

/-- Whether a command registers a document. -/
def registers : Command → Bool
  | register .. | registerText .. => true
  | bundle .. | bundleFile .. => false

/-- The loader after a command; a registration that fails changes nothing. -/
def run (loader : Loader) : Command → Loader
  | register uri tree => (loader.register uri tree).toOption.getD loader
  | registerText uri text => (loader.registerText uri text).toOption.getD loader
  | bundle uri => (loader.bundle uri).2
  | bundleFile path => (loader.bundleFile path).2

end Command

namespace Loader

variable {loader loader' : Loader}

/-- The loader after some commands. -/
def serve (loader : Loader) (commands : List Command) : Loader := commands.foldl Command.run loader

theorem SameView.register (h : SameView loader loader') (uri : String) (tree : Json) :
    SameView (Command.run loader (.register uri tree)) (Command.run loader' (.register uri tree)) := by
  dsimp only [Command.run, Loader.register]
  cases identify uri with
  | error error => exact h
  | ok url =>
      refine ⟨funext fun other => ?_, h.depth⟩
      show (loader'.withShelf (loader'.shelf.put url tree)).effective other
        = (loader.withShelf (loader.shelf.put url tree)).effective other
      rw [effective_put, effective_put]
      show (if other = url then _ else loader'.effective other)
        = if other = url then _ else loader.effective other
      rw [h.effective]

theorem SameView.registers (h : SameView loader loader') {command : Command}
    (hc : command.registers = true) : SameView (command.run loader) (command.run loader') := by
  cases command with
  | register uri tree => exact h.register uri tree
  | registerText uri text =>
      dsimp only [Command.run, registerText]
      cases Yaml.parse? text with
      | none => exact h
      | some tree => exact h.register uri tree
  | bundle | bundleFile => cases hc

/-- A command that registers nothing leaves the loader as it was. -/
theorem sameView_run (loader : Loader) {command : Command} (hc : command.registers = false) :
    SameView loader (command.run loader) := by
  have hbundle : ∀ uri, SameView loader (loader.bundle uri).2 := by
    intro uri
    obtain ⟨shelf, hs, heq⟩ := loader.bundle_fetched uri
    rw [heq]
    exact hs.sameView
  cases command with
  | register | registerText => cases hc
  | bundle uri => exact hbundle uri
  | bundleFile path =>
      dsimp only [Command.run, bundleFile]
      cases Url.ofFile? path with
      | none => exact .refl loader
      | some url => exact hbundle url.text

/-- Of a history only the registrations count. -/
theorem SameView.serve (h : SameView loader loader') (commands : List Command) :
    SameView (loader.serve (commands.filter Command.registers)) (loader'.serve commands) := by
  induction commands generalizing loader loader' with
  | nil => exact h
  | cons command rest ih =>
      cases hc : command.registers with
      | true =>
          rw [List.filter_cons_of_pos hc]
          exact ih (h.registers hc)
      | false =>
          rw [List.filter_cons_of_neg (by rw [hc]; decide)]
          have hrun := loader'.sameView_run hc
          exact ih ⟨hrun.effective.trans h.effective, hrun.depth.trans h.depth⟩

theorem SameView.bundle_eq (h : SameView loader loader') (uri : String) :
    (loader'.bundle uri).1 = (loader.bundle uri).1 := by
  obtain ⟨outcome, _, _, _, _, heq, heq'⟩ := h.bundle uri
  rw [heq, heq']

/-- Bundling, with success or not, changes no document on the shelf and none that is found; its
outcome depends on these and the root only. So of all that a loader was asked for before, only the
registrations count. -/
theorem bundle_transparent (loader : Loader) (uri : String) :
    (loader.bundle uri).2.effective = loader.effective ∧
      (∀ {url tree}, loader.shelf.lookup url = some tree →
        (loader.bundle uri).2.shelf.lookup url = some tree) ∧
      (∀ other : Loader, other.depth = loader.depth → other.effective = loader.effective →
        (other.bundle uri).1 = (loader.bundle uri).1) ∧
      ∀ commands : List Command,
        ((loader.serve commands).bundle uri).1
          = ((loader.serve (commands.filter Command.registers)).bundle uri).1 := by
  obtain ⟨shelf, hs, heq⟩ := loader.bundle_fetched uri
  refine ⟨?_, fun hl => ?_, fun other hd he => ?_, fun commands => ?_⟩
  · rw [heq]
    exact hs.effective_eq
  · rw [heq]
    exact hs.lookup hl
  · exact SameView.bundle_eq ⟨he, hd⟩ uri
  · exact ((SameView.refl loader).serve commands).bundle_eq uri

/-- A loader with two roots, both with a reference to a document that has to be fetched; the first
root has one to nowhere after it. -/
def twoRoots : Loader where
  source := .ofTexts [("mem:///e", "S: 1")]
  shelf :=
    [({ rootUrl with path := .segments ["b"] }, .object [("openapi", .string "3.0.0"),
        ("p", .object [("$ref", .string "e#/S")]), ("q", .object [("$ref", .string "e#/T")])]),
      (rootUrl, .object [("openapi", .string "3.0.0"),
        ("p", .object [("$ref", .string "e#/S")])])]
  depth := 2

/-- A bundling that fails after it fetched something does not show in the next one. -/
theorem bundle_twoRoots :
    (twoRoots.bundle "mem:///b").1.isOk = false ∧
      (twoRoots.bundle "mem:///b").2.shelf.length = 3 ∧
      (twoRoots.bundle "mem:///b").2.depth = twoRoots.depth ∧
      (twoRoots.bundle "mem:///b").2.effective = twoRoots.effective ∧
      ((twoRoots.bundle "mem:///b").2.bundle "mem:///r").1 = (twoRoots.bundle "mem:///r").1 ∧
      ((twoRoots.serve [.bundle "mem:///b"]).bundle "mem:///r").1.isOk = true := by
  have hdepth : (twoRoots.bundle "mem:///b").2.depth = twoRoots.depth := by decide +kernel
  obtain ⟨heffective, _, _, _⟩ := twoRoots.bundle_transparent "mem:///b"
  obtain ⟨_, _, hother, hserve⟩ := twoRoots.bundle_transparent "mem:///r"
  refine ⟨by decide +kernel, by decide +kernel, hdepth, heffective, hother _ hdepth heffective, ?_⟩
  rw [hserve]
  decide +kernel

end Loader

end OpenApi
