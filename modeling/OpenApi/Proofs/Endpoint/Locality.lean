import Mathlib.Data.List.Basic
import OpenApi.Endpoint.Resolution
import OpenApi.Proofs.Schema.Agreement

/-!
# Component schemas are emitted one by one

What a component schema adds to a description depends on its own value and on the values that its
references lead to. Two documents may differ in everything else: in other components, in the order of
the declarations, in what unrelated references lead to. As long as the values that this component
leads to are the same in both, it adds the same named types to both descriptions, its variants
included, and adds them in one piece: `namedTypes_local`.

Being led to is a closed condition on the first document alone, so it can be computed:
`agreeFrom_iff_reach`.
-/

namespace OpenApi

namespace Api

variable {api api' : Api}

/-- Where the references of a component lead to the same values, its named types are the same. -/
theorem namedTypes_eq_of_agree (hs : api.settings = api'.settings) {schema : Schema}
    (h : Document.AgreeFrom api.document api'.document schema) (name : String) :
    api.namedTypes name schema = api'.namedTypes name schema := by
  have htype : ∀ view, api.schemaType view schema = api'.schemaType view schema := by
    intro view
    rw [schemaType, schemaType, lower_eq_of_agree hs h]
  have hvariant : ∀ view access,
      namedTypes.variant api name schema view access
        = namedTypes.variant api' name schema view access := by
    intro view access
    rw [namedTypes.variant, namedTypes.variant, Document.holds_eq_of_agree h, htype]
  rw [namedTypes, namedTypes, htype, hvariant, hvariant]

/-- The named types of a component stand together in the description. -/
theorem namedTypes_infix_schemas {name : String} {value : Json}
    (hm : (name, value) ∈ api.document.schemas) :
    api.namedTypes name (.ofJson value) <:+: api.schemas :=
  List.infix_of_mem_flatten (List.mem_map_of_mem hm)

/-- A component that is declared with the same value in two documents, and whose references lead to
the same values in both, adds the same named types to both descriptions, in one piece. -/
theorem namedTypes_local (hs : api.settings = api'.settings) {name : String} {value : Json}
    (hm : (name, value) ∈ api.document.schemas) (hm' : (name, value) ∈ api'.document.schemas)
    (h : ∀ {pointer}, api.document.Reaches (.ofJson value) pointer →
      api.document.resolve? pointer = api'.document.resolve? pointer) :
    ∃ entries, api.namedTypes name (.ofJson value) = entries ∧
      api'.namedTypes name (.ofJson value) = entries ∧
      entries <:+: api.schemas ∧ entries <:+: api'.schemas := by
  have heq := namedTypes_eq_of_agree hs h name
  refine ⟨_, rfl, heq.symm, namedTypes_infix_schemas hm, ?_⟩
  rw [heq]
  exact namedTypes_infix_schemas hm'

/-- A node of a graph leads to its edges. -/
def graphNode : Json :=
  .object [("type", .string "object"), ("properties", .object [
    ("edges", .object [("type", .string "array"),
      ("items", .object [("$ref", .string "#/components/schemas/Edge")])])])]

/-- An edge leads to a node; it has a label that is only read and a key that is only written. -/
def graphEdge : Json :=
  .object [("properties", .object [
    ("to", .object [("$ref", .string "#/components/schemas/Node")]),
    ("label", .object [("type", .string "string"), ("readOnly", .bool true)]),
    ("key", .object [("type", .string "string"), ("writeOnly", .bool true)])])]

/-- A document that declares only the graph. -/
def graphAlone : Document :=
  ⟨"mem:/graph", .object [("openapi", .string "3.0.0"), ("components", .object [
    ("schemas", .object [("Node", graphNode), ("Edge", graphEdge)])])]⟩

/-- A document that declares the graph backwards, among schemas that refer to it. -/
def graphAmong : Document :=
  ⟨"mem:/atlas", .object [("openapi", .string "3.1.0"), ("components", .object [
    ("schemas", .object [
      ("Atlas", .object [("allOf", .array [.object [("$ref", .string "#/components/schemas/Node")],
        .object [("$ref", .string "#/components/schemas/Map")]])]),
      ("Edge", graphEdge), ("Map", .object [("type", .string "null"), ("writeOnly", .bool true)]),
      ("Node", graphNode)])])]⟩

/-- A node has the same three definitions in both documents. -/
theorem namedTypes_local_graph :
    Document.ofTree "mem:/graph" graphAlone.root = .ok graphAlone ∧
      Document.ofTree "mem:/atlas" graphAmong.root = .ok graphAmong ∧
      ∃ entries : List NamedType,
        entries.map NamedType.name = ["Node", "NodeWritable", "NodeReadable"] ∧
        entries <:+: schemas ⟨graphAlone, {}⟩ ∧ entries <:+: schemas ⟨graphAmong, {}⟩ := by
  have hm : ("Node", graphNode) ∈ graphAlone.schemas := List.mem_cons_self
  have hm' : ("Node", graphNode) ∈ graphAmong.schemas :=
    List.mem_append_right [_, _, _] (List.mem_singleton_self _)
  have hagree : Document.AgreeFrom graphAlone graphAmong (.ofJson graphNode) := by
    intro pointer hr
    have hp : pointer ∈ ["#/components/schemas/Edge", "#/components/schemas/Node"] :=
      hr.mem_of_closed (by decide) (by decide)
    simp only [List.mem_cons, List.not_mem_nil, or_false] at hp
    rcases hp with rfl | rfl <;> rfl
  obtain ⟨entries, rfl, _, hinfix, hinfix'⟩ :=
    @namedTypes_local ⟨graphAlone, {}⟩ ⟨graphAmong, {}⟩ rfl _ _ hm hm' hagree
  exact ⟨rfl, rfl, _, by decide, hinfix, hinfix'⟩

end Api

end OpenApi
