import Mathlib.Order.Basic
import Mathlib.Order.Nat
import OpenApi.Proofs.Endpoint.Faults

/-!
# Chains of components are followed to their end

Following a chain of components takes a bound on its length. The bound hides nothing: every pointer
but the first is a text of the tree, and one that was met before ends the chain, so with any larger
bound the outcome is the same (`followComponent_of_le`). What reading takes for a reference can be an
array, so the pointers are counted among all texts of the tree and not among its references.
-/

namespace OpenApi

/-! ## The texts of a tree -/

namespace Json

theorem texts_subset_of_mem_items {items : List Json} {item : Json} (h : item ∈ items) :
    item.texts ⊆ itemTexts items := by
  induction items with
  | nil => cases h
  | cons first rest ih =>
      unfold itemTexts
      rcases List.mem_cons.mp h with rfl | h
      · exact List.subset_append_left _ _
      · exact List.Subset.trans (ih h) (List.subset_append_right _ _)

theorem texts_subset_of_mem_members {members : Members} {name : String} {value : Json}
    (h : (name, value) ∈ members) : value.texts ⊆ memberTexts members := by
  induction members with
  | nil => cases h
  | cons first rest ih =>
      unfold memberTexts
      rcases List.mem_cons.mp h with rfl | h
      · exact List.subset_append_left _ _
      · exact List.Subset.trans (ih h) (List.subset_append_right _ _)

theorem texts_subset_of_step? {tree child : Json} {step : Step} (h : tree.step? step = some child) :
    child.texts ⊆ tree.texts := by
  cases tree with
  | object members =>
      cases step with
      | member name =>
          rw [texts.eq_def (object members)]
          exact texts_subset_of_mem_members (mem_of_lookup h)
      | item index => cases h
  | array items =>
      cases step with
      | member name => cases h
      | item index =>
          rw [texts.eq_def (array items)]
          exact texts_subset_of_mem_items (List.mem_of_getElem? h)
  | _ => cases step <;> cases h

theorem texts_subset_of_at? {tree node : Json} {path : Path} (h : tree.at? path = some node) :
    node.texts ⊆ tree.texts := by
  induction path generalizing tree with
  | nil =>
      cases h
      exact List.Subset.refl _
  | cons step rest ih =>
      obtain ⟨child, hc, hn⟩ := Option.bind_eq_some_iff.mp h
      exact List.Subset.trans (ih hn) (texts_subset_of_step? hc)

theorem texts_subset_of_resolveLocal? {tree node : Json} {text : String}
    (h : tree.resolveLocal? text = some node) : node.texts ⊆ tree.texts := by
  rw [resolveLocal?_eq_locateLocal?] at h
  obtain ⟨path, _, ha⟩ := Option.bind_eq_some_iff.mp h
  exact texts_subset_of_at? ha

end Json

/-- The pointer of a reference is a text of the value that is read. -/
theorem mem_texts_of_referencePointer? {value : Json} {pointer : String}
    (h : referencePointer? value = some pointer) : pointer ∈ value.texts := by
  obtain ⟨_, members, hm, hfound⟩ := exists_of_referencePointer? h
  obtain ⟨child, hl, htext⟩ := Option.bind_eq_some_iff.mp hfound
  have hchild : child = .string pointer := by
    cases child with
    | string own =>
        cases htext
        rfl
    | _ => cases htext
  have hown : pointer ∈ child.texts := by
    rw [hchild, Json.texts]
    exact List.mem_singleton_self pointer
  cases value with
  | object own =>
      cases hm
      rw [Json.texts.eq_def]
      exact Json.texts_subset_of_mem_members (mem_of_lookup hl) hown
  | array items =>
      rw [Json.texts.eq_def (.array items)]
      exact Json.texts_subset_of_mem_items (mem_of_mem_positional hm (mem_of_lookup hl)) hown
  | _ => cases hm

namespace Document

variable {doc : Document}

/-! ## Chains of components -/

variable {α : Type} {kind : ComponentKind} {read : Json → Option α}

/-- The number of texts of a document that a chain has not met. -/
def unmet (doc : Document) (seen : List String) : Nat :=
  doc.root.texts.countP (!seen.contains ·)

theorem unmet_le (doc : Document) (seen : List String) : doc.unmet seen ≤ doc.root.texts.length :=
  List.countP_le_length

/-- One more step changes nothing if the rest of the chain does not need it. -/
theorem followComponent_succ_of_rest {fuel : Nat} {seen : List String} {pointer : String}
    (h : ∀ {next}, next ∈ doc.root.texts → pointer ∉ seen →
      doc.followComponent kind read (fuel + 1) (pointer :: seen) next
        = doc.followComponent kind read fuel (pointer :: seen) next) :
    doc.followComponent kind read (fuel + 2) seen pointer
      = doc.followComponent kind read (fuel + 1) seen pointer := by
  rw [followComponent, followComponent]
  split
  · rfl
  · next hseen =>
      cases ht : doc.resolve? pointer with
      | none => rfl
      | some target =>
          dsimp only
          cases hread : OrReference.ofJson? read target with
          | none => rfl
          | some written =>
              cases written with
              | value own => rfl
              | reference next =>
                  refine h (Json.texts_subset_of_resolveLocal? ht ?_) (by simpa using hseen)
                  exact mem_texts_of_referencePointer? (referencePointer?_of_ofJson? hread)

theorem followComponent_succ_of_mem {fuel : Nat} {seen : List String} {pointer : String}
    (hm : pointer ∈ doc.root.texts) (hfuel : doc.unmet seen < fuel) :
    doc.followComponent kind read (fuel + 1) seen pointer
      = doc.followComponent kind read fuel seen pointer := by
  induction fuel generalizing seen pointer with
  | zero => omega
  | succ fuel ih =>
      refine followComponent_succ_of_rest fun hnext hseen => ih hnext ?_
      have hlt : doc.unmet (pointer :: seen) < doc.unmet seen := countP_unseen_lt hm hseen
      omega

/-- Any bound from the number of texts on finds the same component. The first pointer need not be one
of the texts. -/
theorem followComponent_of_le {fuel : Nat} {pointer : String}
    (hfuel : doc.root.texts.length + 3 ≤ fuel) :
    doc.followComponent kind read fuel [] pointer
      = doc.followComponent kind read (doc.root.texts.length + 3) [] pointer := by
  induction fuel, hfuel using Nat.le_induction with
  | base => rfl
  | succ fuel hle ih =>
      rw [← ih]
      obtain ⟨fuel, rfl⟩ : ∃ less, fuel = less + 1 := ⟨fuel - 1, by omega⟩
      refine followComponent_succ_of_rest fun hnext _ => followComponent_succ_of_mem hnext ?_
      have hle := doc.unmet_le [pointer]
      omega

end Document

end OpenApi
