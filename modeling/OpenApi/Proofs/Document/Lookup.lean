import OpenApi.Proofs.Endpoint.Declarations
import OpenApi.Proofs.Pointer.Escape

/-!
# Looking a component schema up by its name

A component schema is looked up by following the link to it, the one that bundling writes for its name.
What the link finds and what it is called by type names is read off its last token in the same way
(`resolve?_home`), so lookup by name, the link and the type name are right together or wrong together:
right for the names that are read back, which are those without an escape. `schema?_exact` says so.

A name with an escape is read as another one. It finds the schema that has that other name, if there is
one, and nothing if there is none; `schema?_shadowed` has a document where it finds its neighbour.
-/

namespace OpenApi

namespace Document

variable {doc : Document} {name : String} {value : Json}

theorem home_eq_componentLink (name : String) :
    "#" ++ (Pointer.home name).text = "#/components/schemas/" ++ Pointer.encodeToken name :=
  (componentLink_eq_hash (Pointer.encodeToken name)).symm

/-- The type name of a link is the name that its token is read as. -/
theorem typeName_home (name : String) :
    Reference.typeName ("#" ++ (Pointer.home name).text)
      = Pointer.decodeToken (Pointer.encodeToken name) := by
  rw [home_eq_componentLink, typeName_componentLink (Pointer.slash_notMem_encodeToken name)]

/-- In a document with component schemas a link leads to the one that it is called by. -/
theorem resolve?_home {declared : Members} (hd : doc.root.componentSchemas? = some declared)
    (name : String) :
    doc.resolve? ("#" ++ (Pointer.home name).text)
      = doc.schemas.lookup (Reference.typeName ("#" ++ (Pointer.home name).text)) := by
  have hslash := Pointer.slash_notMem_encodeToken name
  rw [typeName_home, resolve?, home_eq_componentLink, resolveLocal?_componentLink hslash hd,
    schemas, hd, Option.getD_some]

theorem exists_componentSchemas_of_mem_schemas (hm : (name, value) ∈ doc.schemas) :
    ∃ declared, doc.root.componentSchemas? = some declared := by
  cases hd : doc.root.componentSchemas? with
  | none =>
      rw [schemas, hd] at hm
      cases hm
  | some declared => exact ⟨declared, rfl⟩

theorem lookup_schemas (hp : doc.root.proper = true) (hm : (name, value) ∈ doc.schemas) :
    doc.schemas.lookup name = some value :=
  lookup_of_mem (names_nodup_componentSchemas hp) hm

/-- Lookup by name agrees with enumeration for just the names without an escape. Of every schema of a
document, lookup by name follows the link to it, and the link leads to the schema with the type name of
the link. Where the name holds no escape that is the name itself, so that lookup and link give the
schema; where it holds one it is another name. -/
theorem schema?_exact (hp : doc.root.proper = true) (hm : (name, value) ∈ doc.schemas) :
    doc.schema? name = doc.resolve? ("#" ++ (Pointer.home name).text) ∧
    doc.schema? name
      = doc.schemas.lookup (Reference.typeName ("#" ++ (Pointer.home name).text)) ∧
    (Text.hasEscape name.toList = false →
      doc.schema? name = some value ∧
      doc.resolve? ("#" ++ (Pointer.home name).text) = some value ∧
      Reference.typeName ("#" ++ (Pointer.home name).text) = name) ∧
    (Text.hasEscape name.toList = true →
      Reference.typeName ("#" ++ (Pointer.home name).text) ≠ name) := by
  obtain ⟨declared, hd⟩ := exists_componentSchemas_of_mem_schemas hm
  have hlink := resolve?_home hd name
  have hname : Reference.typeName ("#" ++ (Pointer.home name).text) = name
      ↔ Text.hasEscape name.toList = false := by
    rw [typeName_home, Pointer.decodeToken_encodeToken_iff]
  refine ⟨rfl, hlink, fun hplain => ?_, fun hescape heq => ?_⟩
  · have hsame := hname.mpr hplain
    rw [hsame, lookup_schemas hp hm] at hlink
    exact ⟨hlink, hlink, hsame⟩
  · rw [hname.mp heq] at hescape
    cases hescape

/-- Two schemas whose names differ by an escape, and one whose name has marks that are none. -/
def neighbours : Json :=
  .object [("components", .object [("schemas", .object [
    ("a%41", .object [("type", .string "string")]),
    ("aA", .object [("type", .string "integer")]),
    ("50%~1/é%zz", .object [("type", .string "boolean")])])])]

/-- A name with marks but no escape, and one with an escape. -/
theorem schema?_neighbours :
    neighbours.proper = true ∧
    (Document.mk "mem:///r" neighbours).schema? "50%~1/é%zz"
      = some (.object [("type", .string "boolean")]) ∧
    Reference.typeName ("#" ++ (Pointer.home "a%41").text) ≠ "a%41" := by
  have hp : neighbours.proper = true := by decide +kernel
  have hmarks := @schema?_exact ⟨"mem:///r", neighbours⟩ "50%~1/é%zz" _ hp
    (List.mem_cons_of_mem _ (List.mem_cons_of_mem _ (List.mem_singleton_self _)))
  have hescape := @schema?_exact ⟨"mem:///r", neighbours⟩ "a%41" _ hp List.mem_cons_self
  exact ⟨hp, (hmarks.2.2.1 (by decide +kernel)).1, hescape.2.2.2 (by decide +kernel)⟩

/-- The document is accepted, but looking the first of its schemas up gives the second one. -/
theorem schema?_shadowed :
    ∃ doc, ofTree "mem:///r" neighbours = .ok doc ∧
      ("a%41", .object [("type", .string "string")]) ∈ doc.schemas ∧
      doc.schema? "a%41" = some (.object [("type", .string "integer")]) ∧
      doc.resolve? ("#" ++ (Pointer.home "a%41").text)
        = some (.object [("type", .string "integer")]) ∧
      Reference.typeName ("#" ++ (Pointer.home "a%41").text) = "aA" := by
  have hnames : Pointer.decodeToken (Pointer.encodeToken "a%41") = "aA" := by decide +kernel
  have hlink : (Document.mk "mem:///r" neighbours).resolve? ("#" ++ (Pointer.home "a%41").text)
      = some (.object [("type", .string "integer")]) := by
    rw [@resolve?_home ⟨"mem:///r", neighbours⟩ _ rfl, typeName_home, hnames]
    rfl
  exact ⟨⟨"mem:///r", neighbours⟩, rfl, List.mem_cons_self, hlink, hlink,
    by rw [typeName_home, hnames]⟩

end Document

end OpenApi
