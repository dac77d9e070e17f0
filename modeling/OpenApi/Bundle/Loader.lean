import OpenApi.Bundle.Bundler

/-!
# Loaders

A loader keeps the documents that were registered or fetched and bundles any of them. A document
that is named by a relative name lives under a base URL of its own, an absolute file name under its
`file` URL. Bundling never changes a document at hand; it may only add what it fetched.
-/

namespace OpenApi

/-- Documents at hand and a source for the others. -/
structure Loader where
  source : Source
  shelf : Shelf := []
  /-- How many targets may be nested in each other. -/
  depth : Nat := 100000
  deriving Inhabited

namespace Loader

/-- The URL under which relative names live. -/
def relativeBase : Url :=
  ⟨"http", some { host := "example.invalid" }, .segments [""], none, none⟩

/-- The URL that a document identifier denotes. -/
def identify (uri : String) : Except Error Url :=
  match Url.parse uri with
  | .ok url => .ok url
  | .error _ =>
    if uri.toList.head? = some '/' then
      match Url.ofFile? uri with
      | some url => .ok url
      | none => .error (.retrieval (.noFileUri uri))
    else
      match relativeBase.join uri with
      | .ok url => .ok url
      | .error fault => .error (.retrieval (.badUri uri fault))

/-- Registers a tree. -/
def register (loader : Loader) (uri : String) (tree : Json) : Except Error Loader :=
  (identify uri).map fun url => { loader with shelf := loader.shelf.put url tree }

/-- Registers a text. -/
def registerText (loader : Loader) (uri text : String) : Except Error Loader :=
  match Yaml.parse? text with
  | none => .error (.parse (.documentText uri))
  | some tree => loader.register uri tree

/-- Bundles the document of an identifier; the loader keeps what was fetched for it, also if
bundling fails. -/
def bundle (loader : Loader) (uri : String) : Except Error Document × Loader :=
  match identify uri with
  | .error error => (.error error, loader)
  | .ok url =>
    match bundleAt loader.source loader.depth url.document { shelf := loader.shelf } with
    | .ok document progress => (.ok document, { loader with shelf := progress.shelf })
    | .error error progress => (.error error, { loader with shelf := progress.shelf })

/-- Bundles the document in a file with an absolute name. -/
def bundleFile (loader : Loader) (path : String) : Except Error Document × Loader :=
  match Url.ofFile? path with
  | some url => loader.bundle url.text
  | none => (.error (.retrieval (.noFileUri path)), loader)

end Loader

/-- Bundles a single text that is found nowhere, so that references to other documents can only lead
to what `source` knows. -/
def Document.ofText (source : Source) (text : String) : Except Error Document := do
  let loader ← Loader.registerText { source } "openapi.yaml" text
  (loader.bundle "openapi.yaml").1

end OpenApi
