import OpenApi.Pointer

/-!
# References

The text of a `$ref` is a document part and, after the first `#`, a fragment. An empty document part
means the document that holds the reference; only such references are resolved in a tree.
-/

namespace OpenApi

/-- The text of a `$ref`, cut at its first `#`. -/
structure Reference where
  document : String
  fragment : Option String
  deriving DecidableEq, Repr

namespace Reference

/-- Cuts a text at its first `#`. -/
def parse (text : String) : Reference :=
  match Text.cutAt? '#' text.toList with
  | some (document, fragment) => ⟨String.ofList document, some (String.ofList fragment)⟩
  | none => ⟨text, none⟩

/-- Whether a reference stays in the document that holds it. -/
def isLocal (r : Reference) : Bool := r.document.isEmpty

/-- The type name that a reference text designates: the last piece of its fragment, or of the whole
text if it has none, read as a pointer token. -/
def typeName (text : String) : String :=
  let pointer := (parse text).fragment.getD text
  Pointer.decodeToken (String.ofList (Text.lastPiece '/' pointer.toList))

end Reference

/-- The node that a reference text designates in the tree that holds it. -/
def Json.resolveLocal? (tree : Json) (text : String) : Option Json :=
  let reference := Reference.parse text
  if reference.isLocal then tree.resolve? (reference.fragment.getD "") else none

end OpenApi
