import OpenApi.Proofs.Document.Chain
import OpenApi.Proofs.Endpoint.Chains

/-!
# Following components is dereferencing

References are followed in two places. `deref` follows whatever has a `$ref` text; reading a
component follows what it can read as a Reference Object, which may be an array of its members and may
not have annotations other than texts. `Document.component_exact` says that the two come to the same
end of the same chain where every value on the chain is `legible`, that is, where the two notions of a
reference agree.

Both are compared with the chain itself (`Document.Chain`) and not with each other. One step of the
search for a component is one link of the chain (`followComponent_succ_of_legible`), so the search is
at the stop of the chain after as many steps as the chain has links (`followComponent_chain`).
-/

namespace OpenApi

/-- Reading a component takes the value for a reference exactly if it is one: it is no array, and the
annotations of a reference are texts or absent. -/
def Json.legible (value : Json) : Bool :=
  value.asArray?.isNone && (value.reference?.isNone ||
    ["description", "summary"].all fun name =>
      (value.member? name).all fun note => note.asString?.isSome)

theorem exists_readDefault_of_all {members : Members} {name : String}
    (h : (members.lookup name).all (fun note => note.asString?.isSome) = true) (default : String) :
    ∃ text, readDefault members name default Json.asString? = some text := by
  unfold readDefault
  cases hl : members.lookup name with
  | none => exact ⟨default, rfl⟩
  | some note =>
      rw [hl] at h
      exact Option.isSome_iff_exists.mp h

theorem referencePointer?_of_legible {value : Json} (h : value.legible = true) :
    referencePointer? value = value.reference? := by
  obtain ⟨harray, hnotes⟩ := Bool.and_eq_true_iff.mp h
  have harray := Option.isNone_iff_eq_none.mp harray
  cases hr : value.reference? with
  | none =>
      cases hp : referencePointer? value with
      | none => rfl
      | some pointer => exact absurd (hr.symm.trans (reference?_of_referencePointer? harray hp)) nofun
  | some text =>
      obtain ⟨members, rfl, _⟩ := Json.exists_members_of_reference? hr
      rw [hr, Option.isNone_some, Bool.false_or, List.all_eq_true] at hnotes
      obtain ⟨description, hd⟩ := exists_readDefault_of_all (hnotes "description" (by simp)) ""
      obtain ⟨summary, hs⟩ := exists_readDefault_of_all (hnotes "summary" (by simp)) ""
      have hpointer : readMember members "$ref" Json.asString? = some text := hr
      simp only [referencePointer?, membersOf?, Option.bind_eq_bind, Option.bind_some, hpointer, hd,
        hs]

/-- What reading the end of a chain gives; a value of another shape is reported with the pointer that
leads to it. -/
def componentAt {α : Type} (kind : ComponentKind) (read : Json → Option α) (pointer : String)
    (value : Json) : Except Error α :=
  match read value with
  | some component => .ok component
  | none => .error (.parse (.componentShape kind pointer))

theorem componentAt_eq_ok_or_shape {α : Type} (kind : ComponentKind) (read : Json → Option α)
    (pointer : String) (value : Json) :
    (∃ component, componentAt kind read pointer value = .ok component) ∨
      componentAt kind read pointer value = .error (.parse (.componentShape kind pointer)) := by
  unfold componentAt
  cases read value with
  | some component => exact .inl ⟨component, rfl⟩
  | none => exact .inr rfl

namespace Document

variable {doc : Document} {value last next : Json} {pointer text : String}
  {texts seen : List String} {α : Type} {kind : ComponentKind} {read : Json → Option α}

/-! ## Chains of legible values -/

/-- A chain that ends at a reference starts at one. -/
theorem Chain.isSome_reference? (h : doc.Chain value texts last)
    (hl : last.reference?.isSome = true) : value.reference?.isSome = true := by
  cases h with
  | nil => exact hl
  | cons hr _ _ => rw [hr, Option.isSome_some]

/-- It is enough that the start of a chain is legible, and whatever a reference of the start or of the
tree leads to. -/
theorem Chain.legible (h : doc.Chain value texts last) (hv : value.legible = true)
    (hcheck : ∀ text ∈ value.references ++ doc.root.references,
      (doc.resolve? text).all Json.legible = true) : last.legible = true := by
  induction h with
  | nil => exact hv
  | cons hr hn _ ih =>
      have hm := List.mem_append_left doc.root.references (Json.mem_references_of_reference? hr)
      have hnext := hcheck _ hm
      rw [hn] at hnext
      refine ih hnext fun text ht => hcheck text (List.mem_append_right _ ?_)
      rw [List.mem_append] at ht
      exact ht.elim (references_subset_of_resolve? hn ·) id

/-! ## One link, and a whole chain -/

theorem followComponent_of_mem {fuel : Nat} (hm : pointer ∈ seen) :
    doc.followComponent kind read (fuel + 1) seen pointer
      = .error (.parse (.referenceCycle kind pointer)) := by
  rw [followComponent, if_pos (List.contains_iff_mem.mpr hm)]

/-- A new pointer to a legible value is followed to the next one, or the value is read. -/
theorem followComponent_succ_of_legible {fuel : Nat} (hseen : pointer ∉ seen)
    (ht : doc.resolve? pointer = some value) (hl : value.legible = true) :
    doc.followComponent kind read (fuel + 1) seen pointer = match value.reference? with
      | some text => doc.followComponent kind read fuel (pointer :: seen) text
      | none => componentAt kind read pointer value := by
  have hcontains : ¬seen.contains pointer = true := by
    rw [List.contains_iff_mem]
    exact hseen
  rw [followComponent, if_neg hcontains, ht]
  dsimp only
  rw [OrReference.ofJson?, referencePointer?_of_legible hl]
  cases value.reference? with
  | some text => rfl
  | none =>
      dsimp only
      unfold componentAt
      cases read value with
      | some component => rfl
      | none => rfl

/-- As many steps as the chain has links lead from the reference where it starts to the one where it
ends. -/
theorem followComponent_chain (h : doc.Chain value texts last)
    (hlegible : ∀ texts last, doc.Chain value texts last → last.legible = true)
    (hv : value.reference? = some pointer) (hl : last.reference? = some text) (hd : texts.Nodup)
    (hs : ∀ other ∈ texts, other ∉ seen) (fuel : Nat) :
    doc.followComponent kind read (texts.length + fuel) seen pointer
      = doc.followComponent kind read fuel (texts.reverse ++ seen) text := by
  induction h generalizing seen pointer with
  | nil =>
      cases hv.symm.trans hl
      rw [List.length_nil, Nat.zero_add]
      rfl
  | @cons value next last own rest hr hn h ih =>
      cases hv.symm.trans hr
      obtain ⟨hnew, hd⟩ := List.nodup_cons.mp hd
      obtain ⟨following, hf⟩ := Option.isSome_iff_exists.mp
        (h.isSome_reference? (Option.isSome_iff_exists.mpr ⟨text, hl⟩))
      rw [List.length_cons, Nat.add_right_comm,
        followComponent_succ_of_legible (hs _ List.mem_cons_self) hn
          (hlegible _ _ (.cons hr hn (.nil next))), hf]
      dsimp only
      rw [ih (fun _ _ hc => hlegible _ _ (.cons hr hn hc)) hf hl hd ?_, List.reverse_cons,
        List.append_assoc]
      · rfl
      · intro other ho
        refine List.not_mem_cons_of_ne_of_not_mem ?_ (hs other (List.mem_cons_of_mem _ ho))
        exact fun he => hnew (he ▸ ho)

/-! ## The stop of a chain of components -/

/-- A component is found with more steps than any given number. -/
theorem component_reference_eq (doc : Document) (kind : ComponentKind) (read : Json → Option α)
    (pointer : String) (count : Nat) :
    ∃ fuel, doc.component kind read (.reference pointer)
      = doc.followComponent kind read (count + (fuel + 1)) [] pointer :=
  ⟨doc.root.texts.length + 2, (followComponent_of_le (by omega)).symm⟩

/-- A chain that comes back is reported with the pointer that came back. -/
theorem component_of_recurs (h : doc.Chain value texts last)
    (hlegible : ∀ texts last, doc.Chain value texts last → last.legible = true)
    (hv : value.reference? = some pointer) (hd : texts.Nodup) (hl : last.reference? = some text)
    (hm : text ∈ texts) :
    doc.component kind read (.reference pointer)
      = .error (.parse (.referenceCycle kind text)) := by
  obtain ⟨fuel, hfuel⟩ := component_reference_eq doc kind read pointer texts.length
  rw [hfuel, followComponent_chain h hlegible hv hl hd (fun _ _ => List.not_mem_nil),
    followComponent_of_mem (by simpa using hm)]

/-- A chain that ends has its end read. -/
theorem component_of_ends (h : doc.Chain value (texts ++ [text]) last)
    (hlegible : ∀ texts last, doc.Chain value texts last → last.legible = true)
    (hv : value.reference? = some pointer) (hd : (texts ++ [text]).Nodup)
    (hl : last.reference? = none) :
    doc.component kind read (.reference pointer) = componentAt kind read text last := by
  have hlast := hlegible _ _ h
  obtain ⟨holder, hh, ht⟩ := h.exists_of_append
  cases ht with
  | cons hr hn hnil =>
      cases hnil
      have hdisjoint := List.nodup_append.mp hd
      have hnew : text ∉ texts := fun hm =>
        hdisjoint.2.2 text hm text (List.mem_singleton_self text) rfl
      obtain ⟨fuel, hfuel⟩ := component_reference_eq doc kind read pointer texts.length
      rw [hfuel, followComponent_chain hh hlegible hv hr hdisjoint.1 (fun _ _ => List.not_mem_nil),
        followComponent_succ_of_legible (by simpa using hnew) hn hlast, hl]

/-- In an accepted document, a chain from a pointer that resolves stops at a value that is no
reference, or where a text comes back. -/
theorem Stop.recurs (hdoc : doc.Closed) (hp : (doc.resolve? pointer).isSome = true)
    (hv : value.reference? = some pointer) (h : doc.Stop value texts last)
    (hl : last.reference? = some text) : text ∈ texts := by
  refine (h.stops text hl).resolve_right fun hn => ?_
  have hchain := h.chain
  cases hchain with
  | nil =>
      cases hv.symm.trans hl
      rw [hn] at hp
      cases hp
  | cons hr hnext hrest =>
      have hm := hrest.references_subset (references_subset_of_resolve? hnext)
        (Json.mem_references_of_reference? hl)
      have hresolves := hdoc text hm
      rw [hn] at hresolves
      cases hresolves

/-- A chain from a pointer that resolves has the pointer on it before it ends. -/
theorem Stop.exists_concat (hp : (doc.resolve? pointer).isSome = true)
    (hv : value.reference? = some pointer) (h : doc.Stop value texts last) :
    ∃ before text, texts = before ++ [text] := by
  rcases List.eq_nil_or_concat texts with rfl | ⟨before, text, rfl⟩
  · have hchain := h.chain
    cases hchain with
    | nil =>
        rcases h.stops pointer hv with hm | hn
        · cases hm
        · rw [hn] at hp
          cases hp
  · exact ⟨before, text, List.concat_eq_append⟩

/-- In an accepted document, take a pointer that resolves and from which references lead to legible
values only. Following it to a component of any kind is dereferencing it. It fails with a cycle
exactly if there is nothing to be found at the end of the chain, and the pointer that is named is one
that came back; otherwise it reads the value at the end, and only the reading can fail. No larger
bound gives anything else, and nothing is left unresolved. -/
theorem component_exact {uri : String} {root : Json} (hdoc : ofTree uri root = .ok doc)
    {pointer : String} (hp : (doc.resolve? pointer).isSome = true)
    (hlegible : ∀ texts last, doc.Chain (.object [("$ref", .string pointer)]) texts last →
      last.legible = true)
    {α : Type} (kind : ComponentKind) (read : Json → Option α) :
    (doc.deref (.object [("$ref", .string pointer)]) = none ↔ ∃ text,
      doc.component kind read (.reference pointer) = .error (.parse (.referenceCycle kind text)))
    ∧ (∀ text,
        doc.component kind read (.reference pointer) = .error (.parse (.referenceCycle kind text)) →
        ∃ texts last, doc.Chain (.object [("$ref", .string pointer)]) texts last
          ∧ last.reference? = some text ∧ text ∈ texts)
    ∧ (∀ target, doc.deref (.object [("$ref", .string pointer)]) = some target →
        ∃ texts text, doc.Chain (.object [("$ref", .string pointer)]) (texts ++ [text]) target
          ∧ doc.component kind read (.reference pointer) = componentAt kind read text target)
    ∧ (∀ text base, doc.component kind read (.reference pointer)
        ≠ .error (.unresolvedReference text base))
    ∧ ∀ fuel, doc.root.texts.length + 3 ≤ fuel →
        doc.followComponent kind read fuel [] pointer
          = doc.component kind read (.reference pointer) := by
  have hclosed : doc.Closed := by
    obtain ⟨rfl, hresolves⟩ := ofTree_eq_ok hdoc
    exact hresolves
  have hv : (Json.object [("$ref", .string pointer)]).reference? = some pointer := rfl
  obtain ⟨texts, last, hs⟩ := doc.exists_stop (.object [("$ref", .string pointer)])
  have hderef := hs.deref_eq
  cases hl : last.reference? with
  | some text =>
      have hm := hs.recurs hclosed hp hv hl
      rw [hl, Option.isNone_some, if_neg Bool.false_ne_true] at hderef
      have hcomponent : doc.component kind read (.reference pointer)
          = .error (.parse (.referenceCycle kind text)) :=
        component_of_recurs hs.chain hlegible hv hs.nodup hl hm
      refine ⟨⟨fun _ => ⟨text, hcomponent⟩, fun _ => hderef⟩, fun other h => ?_, fun target h => ?_,
        fun other base h => ?_, fun fuel hfuel => followComponent_of_le hfuel⟩
      · cases hcomponent.symm.trans h
        exact ⟨texts, last, hs.chain, hl, hm⟩
      · cases hderef.symm.trans h
      · cases hcomponent.symm.trans h
  | none =>
      obtain ⟨before, text, rfl⟩ := hs.exists_concat hp hv
      rw [hl, Option.isNone_none, if_pos rfl] at hderef
      have hcomponent : doc.component kind read (.reference pointer)
          = componentAt kind read text last :=
        component_of_ends hs.chain hlegible hv hs.nodup hl
      have hcases := componentAt_eq_ok_or_shape kind read text last
      rw [← hcomponent] at hcases
      refine ⟨⟨fun h => ?_, fun ⟨other, h⟩ => ?_⟩, fun other h => ?_, fun target h => ?_,
        fun other base h => ?_, fun fuel hfuel => followComponent_of_le hfuel⟩
      · cases hderef.symm.trans h
      · rw [h] at hcases
        simp at hcases
      · rw [h] at hcases
        simp at hcases
      · cases hderef.symm.trans h
        exact ⟨before, text, hs.chain, hcomponent⟩
      · rw [h] at hcases
        simp at hcases

/-- A response that is referred to through another one, and two that refer to each other. -/
def relays : Document where
  uri := "mem:/r"
  root := .object [("components", .object [("responses", .object [
    ("Alias", .object [("$ref", .string "#/components/responses/Empty")]),
    ("Empty", .object [("description", .string "nothing")]),
    ("Round", .object [("$ref", .string "#/components/responses/Trip")]),
    ("Trip", .object [("$ref", .string "#/components/responses/Round"),
      ("summary", .string "back again")])])])]

/-- The one chain ends at a response, the other is reported as a cycle. -/
theorem component_relays :
    ofTree "mem:/r" relays.root = .ok relays ∧
      (∀ name ∈ ["Alias", "Round"],
        (relays.resolve? ("#/components/responses/" ++ name)).isSome = true ∧
        ∀ texts last, relays.Chain
          (.object [("$ref", .string ("#/components/responses/" ++ name))]) texts last →
          last.legible = true) ∧
      relays.component .response ResponseObject.ofJson?
        (.reference "#/components/responses/Alias") = .ok ⟨none⟩ ∧
      ∃ text, relays.component .response ResponseObject.ofJson?
        (.reference "#/components/responses/Round")
          = .error (.parse (.referenceCycle .response text)) := by
  -- the two pointers are texts of the tree, or the one other text that is checked with them
  have hcheck : ∀ text ∈ "#/components/responses/Alias" :: relays.root.references,
      (relays.resolve? text).any Json.legible = true := by decide +kernel
  have hleads : ∀ text ∈ "#/components/responses/Alias" :: relays.root.references,
      ∃ value, relays.resolve? text = some value ∧ value.legible = true :=
    fun text hm => (Option.any_eq_true _ _).mp (hcheck text hm)
  have hknown : ∀ name ∈ ["Alias", "Round"], "#/components/responses/" ++ name
      ∈ "#/components/responses/Alias" :: relays.root.references := by decide
  have hdoc : ofTree "mem:/r" relays.root = .ok relays := by
    refine ofTree_of_closed fun text hm => ?_
    obtain ⟨value, hv, _⟩ := hleads text (List.mem_cons_of_mem _ hm)
    exact Option.isSome_iff_exists.mpr ⟨value, hv⟩
  have hstart : ∀ name ∈ ["Alias", "Round"],
      (relays.resolve? ("#/components/responses/" ++ name)).isSome = true ∧
      ∀ texts last, relays.Chain
        (.object [("$ref", .string ("#/components/responses/" ++ name))]) texts last →
        last.legible = true := by
    intro name hname
    obtain ⟨value, hv, _⟩ := hleads _ (hknown name hname)
    refine ⟨Option.isSome_iff_exists.mpr ⟨value, hv⟩, fun _ _ h => h.legible rfl fun text ht => ?_⟩
    have hm : text ∈ "#/components/responses/Alias" :: relays.root.references := by
      rcases List.mem_cons.mp ht with rfl | ht
      · exact hknown name hname
      · exact List.mem_cons_of_mem _ ht
    obtain ⟨next, hn, hlegible⟩ := hleads text hm
    rw [hn]
    exact hlegible
  have halias := hstart "Alias" (by simp)
  have hround := hstart "Round" (by simp)
  refine ⟨hdoc, hstart, ?_, ?_⟩
  · obtain ⟨_, _, hfound, _⟩ :=
      component_exact hdoc halias.1 halias.2 .response ResponseObject.ofJson?
    obtain ⟨_, _, _, h⟩ := hfound (.object [("description", .string "nothing")]) rfl
    exact h
  · obtain ⟨hcycle, _⟩ :=
      component_exact hdoc hround.1 hround.2 .response ResponseObject.ofJson?
    exact hcycle.mp rfl

end Document

end OpenApi
