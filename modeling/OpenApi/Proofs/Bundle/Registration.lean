import OpenApi.Proofs.Bundle.Transparency
import OpenApi.Proofs.Url.Document

/-!
# A registered document is the one that is bundled

A registration is kept under the URL that the identifier denotes, and bundling reads the URL of the
document that it denotes. The two are the same unless the identifier denotes a fragment
(`document_of_identify`), so for all identifiers without one the root of a bundling is the tree that was
registered, and no source and no other registration has a say in it: `bundle_registered`.

That is said in two ways. Bundling is cut into reading the root and making it self-contained
(`bundleTree`), and after a registration it is the latter alone, with the tree at hand. And what a loader
would find under the URL without the registration can be anything.

Under a URL with a fragment a registration is out of reach, since no document is ever read at one.
-/

namespace OpenApi

/-- Makes a tree at hand self-contained as the document at a URL, which is not read. -/
def bundleTree (source : Source) (fuel : Nat) (url : Url) (root : Json) : Walk Document := do
  Walk.ofExcept (checkVersion root)
  let declared := root.componentSchemas?.getD []
  let names ← Walk.ofExcept (reserveNames url declared [])
  modify fun progress => { progress with names, taken := declared.names }
  let walked ← root.walk (replaceReference source url fuel url) .root .other
  bundleFinish url walked

theorem bundleAt_eq_bundleTree (source : Source) (fuel : Nat) (url : Url) :
    bundleAt source fuel url = Walk.document source url >>= bundleTree source fuel url := by
  rw [bundleAt_eq, bundleStart]
  unfold bundleTree
  simp only [bind_assoc, pure_bind]

namespace Loader

variable {loader loader' : Loader} {uri : String} {url : Url} {tree : Json}

/-- The outcome of a walk from the shelf of a loader, which keeps what was fetched in it. -/
def outcome (loader : Loader) (walk : Walk Document) : Except Error Document × Loader :=
  match walk { shelf := loader.shelf } with
  | .ok document progress => (.ok document, loader.withShelf progress.shelf)
  | .error error progress => (.error error, loader.withShelf progress.shelf)

theorem exists_identify (h : loader.register uri tree = .ok loader') :
    ∃ url, identify uri = .ok url := by
  cases hi : identify uri with
  | ok url => exact ⟨url, rfl⟩
  | error error =>
      rw [register, hi] at h
      cases h

theorem register_of_identify (loader : Loader) (hi : identify uri = .ok url) (tree : Json) :
    loader.register uri tree = .ok (loader.withShelf (loader.shelf.put url tree)) := by
  rw [register, hi]
  rfl

theorem register_eq_ok (hi : identify uri = .ok url) (h : loader.register uri tree = .ok loader') :
    loader' = loader.withShelf (loader.shelf.put url tree) := by
  rw [register_of_identify loader hi tree] at h
  cases h
  rfl

/-- A registration is found at its URL, and at no other. -/
theorem effective_register (hi : identify uri = .ok url)
    (h : loader.register uri tree = .ok loader') (other : Url) :
    loader'.effective other = if other = url then .ok tree else loader.effective other := by
  rw [register_eq_ok hi h, effective_put]
  rfl

theorem lookup_register (hi : identify uri = .ok url) (h : loader.register uri tree = .ok loader') :
    loader'.shelf.lookup url = some tree := by
  rw [register_eq_ok hi h, withShelf, Shelf.lookup_put, if_pos rfl]

/-- With the root on the shelf, bundling makes that tree self-contained. -/
theorem bundle_of_lookup (hi : identify uri = .ok url)
    (hl : loader.shelf.lookup url.document = some tree) :
    loader.bundle uri
      = loader.outcome (bundleTree loader.source loader.depth url.document tree) := by
  have hread : Walk.document loader.source url.document { shelf := loader.shelf }
      = .ok tree { shelf := loader.shelf } := by
    rw [Walk.document_run]
    dsimp only
    rw [hl]
  have hrun : bundleAt loader.source loader.depth url.document { shelf := loader.shelf }
      = bundleTree loader.source loader.depth url.document tree { shelf := loader.shelf } := by
    rw [bundleAt_eq_bundleTree, Walk.bind_run_ok hread]
  rw [bundle, hi, outcome, ← hrun]
  rfl

/-- Where neither shelf nor source have the root, bundling fails as the source does. -/
theorem bundle_of_source_error {error : Error} (hi : identify uri = .ok url)
    (hl : loader.shelf.lookup url.document = none)
    (hs : loader.source.document url.document = .error error) :
    loader.bundle uri = (.error error, loader) := by
  have hread : Walk.document loader.source url.document { shelf := loader.shelf }
      = .error error { shelf := loader.shelf } := by
    rw [Walk.document_run]
    dsimp only
    rw [hl, hs]
  have hrun : bundleAt loader.source loader.depth url.document { shelf := loader.shelf }
      = .error error { shelf := loader.shelf } := by
    rw [bundleAt_eq_bundleTree, Walk.bind_run, hread]
  rw [bundle, hi]
  dsimp only
  rw [hrun]

/-- Two loaders that find the same everywhere else bundle what was registered to the same outcome. -/
theorem bundle_eq_of_register {other other' : Loader} (hi : identify uri = .ok url)
    (h : loader.register uri tree = .ok loader') (h' : other.register uri tree = .ok other')
    (hd : other.depth = loader.depth)
    (he : ∀ place, place ≠ url → other.effective place = loader.effective place) :
    (other'.bundle uri).1 = (loader'.bundle uri).1 := by
  refine SameView.bundle_eq ⟨funext fun place => ?_, ?_⟩ uri
  · rw [effective_register hi h', effective_register hi h]
    split
    · rfl
    · next hne => exact he place hne
  · rw [register_eq_ok hi h', register_eq_ok hi h]
    exact hd

/-- A registration at a URL with a fragment does not show. -/
theorem bundle_eq_of_fragment (hi : identify uri = .ok url) (hf : url.fragment ≠ none)
    (h : loader.register uri tree = .ok loader') (root : String) :
    (loader'.bundle root).1 = (loader.bundle root).1 := by
  have hd : loader'.depth = loader.depth := by
    rw [register_eq_ok hi h]
    rfl
  have he : ∀ {place : Url}, place.fragment = none →
      loader'.effective place = loader.effective place := by
    intro place hplace
    rw [effective_register hi h, if_neg]
    rintro rfl
    exact hf hplace
  obtain ⟨_, _, _, _, _, heq, heq'⟩ := exists_bundle_eq hd he root
  rw [heq, heq']

/-- A registered document is the one that is bundled, just if its identifier denotes no fragment.
Then bundling makes the registered tree self-contained without reading its root anywhere, to an outcome
that depends only on what is found at other URLs, and the loader still has the tree afterwards. With a
fragment no bundling shows the registration. An identifier without a `#` denotes no fragment, nor does
an absolute file name. -/
theorem bundle_registered (h : loader.register uri tree = .ok loader') :
    ∃ url, identify uri = .ok url ∧
      (url.fragment = none →
        loader'.bundle uri = loader'.outcome (bundleTree loader'.source loader'.depth url tree) ∧
        (∀ other other' : Loader, other.depth = loader.depth →
          (∀ place, place ≠ url → other.effective place = loader.effective place) →
          other.register uri tree = .ok other' → (other'.bundle uri).1 = (loader'.bundle uri).1) ∧
        (loader'.bundle uri).2.shelf.lookup url = some tree) ∧
      (url.fragment ≠ none → ∀ root, (loader'.bundle root).1 = (loader.bundle root).1) ∧
      ('#' ∉ uri.toList ∨ uri.toList.head? = some '/' → url.fragment = none) := by
  obtain ⟨url, hi⟩ := exists_identify h
  have hl := lookup_register hi h
  refine ⟨url, hi, fun hf => ?_, fun hf root => bundle_eq_of_fragment hi hf h root,
    fun hu => fragment_of_identify hu hi⟩
  have hdocument := document_of_identify hi hf
  refine ⟨?_, fun other other' hd he h' => bundle_eq_of_register hi h h' hd he, ?_⟩
  · rw [← hdocument] at hl
    rw [bundle_of_lookup hi hl, hdocument]
  · obtain ⟨shelf, hs, heq⟩ := loader'.bundle_fetched uri
    rw [heq]
    exact hs.lookup hl

/-- A tree without references. -/
def bareTree : Json := .object [("openapi", .string "3.0.0")]

/-- The URL of a file whose name has a `#`. -/
def markedFile : Url := ⟨"file", some {}, .segments ["api", "v%231.yaml"], none, none⟩

/-- A source that has a text under the URL of the file, of a version that is not accepted. -/
def misled : Loader where
  source := .ofTexts [("file:///api/v%231.yaml", "openapi: 2.0.0")]
  depth := 1

/-- What is registered under a file name with a `#` is bundled, and not what the source has there. -/
theorem bundle_misled :
    (misled.bundle "/api/v#1.yaml").1.isOk = false ∧
    ∃ loader', misled.register "/api/v#1.yaml" bareTree = .ok loader' ∧
      (loader'.bundle "/api/v#1.yaml").1.isOk = true ∧
      (loader'.bundle "/api/v#1.yaml").2.shelf.lookup markedFile = some bareTree := by
  have hi : identify "/api/v#1.yaml" = .ok markedFile := by decide +kernel
  have h := register_of_identify misled hi bareTree
  obtain ⟨url, hurl, hbare, _, hnone⟩ := bundle_registered h
  cases hi.symm.trans hurl
  obtain ⟨_, _, hkept⟩ := hbare (hnone (.inr rfl))
  exact ⟨by decide +kernel, _, h, by decide +kernel, hkept⟩

/-- A tree that is registered under an identifier with a fragment is not found by it. -/
theorem bundle_unreachable :
    ∃ loader', ({ source := .empty } : Loader).register "mem:///r#x" bareTree = .ok loader' ∧
      loader'.bundle "mem:///r#x" = (.error (.retrieval (.noDocument "mem:///r")), loader') := by
  have hi : identify "mem:///r#x" = .ok { rootUrl with fragment := some "x" } := by decide +kernel
  have htext : rootUrl.text = "mem:///r" := by decide
  refine ⟨_, register_of_identify _ hi bareTree, ?_⟩
  rw [bundle_of_source_error hi (by decide +kernel) rfl]
  show (Except.error (Error.retrieval (.noDocument rootUrl.text)), _) = _
  rw [htext]

end Loader

end OpenApi
