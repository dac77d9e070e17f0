import OpenApi.Error
import OpenApi.Reference

/-!
# Self-contained documents

A document all of whose references are local and resolve in its tree. The check is a search through
the list of references in pre-order, so the first offender is the one reported. Chains of references
are followed with the texts already seen at hand; a text that comes back ends the chain without a
value, and since every text but the first is one of the tree's, the number of references in the tree
bounds every chain.
-/

namespace OpenApi

mutual

/-- The texts of the references in a tree: that of an object before those of its members. -/
def Json.references : Json → List String
  | .object members => (Json.object members).reference?.toList ++ Json.memberReferences members
  | .array items => Json.itemReferences items
  | _ => []

/-- The texts of the references in a list of values. -/
def Json.itemReferences : List Json → List String
  | [] => []
  | item :: rest => item.references ++ Json.itemReferences rest

/-- The texts of the references in a list of members. -/
def Json.memberReferences : List (String × Json) → List String
  | [] => []
  | (_, value) :: rest => value.references ++ Json.memberReferences rest

end

/-- A tree with the URI that it came from. -/
structure Document where
  uri : String
  root : Json
  deriving Repr, Inhabited

namespace Document

/-- The node that a reference text designates. -/
def resolve? (doc : Document) (text : String) : Option Json := doc.root.resolveLocal? text

/-- Accepts a tree whose references all resolve in it. -/
def ofTree (uri : String) (root : Json) : Except Error Document :=
  match root.references.find? fun text => (root.resolveLocal? text).isNone with
  | some text => .error (.unresolvedReference text uri)
  | none => .ok ⟨uri, root⟩

/-- Follows references from a value; `seen` holds the texts followed so far. -/
def derefFrom (doc : Document) : Nat → List String → Json → Option Json
  | 0, _, _ => none
  | fuel + 1, seen, value =>
    match value.reference? with
    | none => some value
    | some text =>
      if seen.contains text then none
      else (doc.resolve? text).bind (doc.derefFrom fuel (text :: seen))

/-- More steps than any chain of distinct references has. -/
def chainBound (doc : Document) : Nat := doc.root.references.length + 3

/-- The value at the end of the chain of references that starts at `value`; none if the chain comes
back to itself. -/
def deref (doc : Document) (value : Json) : Option Json := doc.derefFrom doc.chainBound [] value

/-- The component schemas, in declaration order. -/
def schemas (doc : Document) : Members := doc.root.componentSchemas?.getD []

/-- The reference text of a component schema. -/
def schemaReference (name : String) : String :=
  "#" ++ (Pointer.componentSchemas.member name).text

/-- The component schema called `name`. -/
def schema? (doc : Document) (name : String) : Option Json := doc.resolve? (schemaReference name)

/-- The members of `paths`, where that is an object. -/
def paths? (doc : Document) : Option Members := (doc.root.member? "paths").bind Json.asObject?

end Document

end OpenApi
