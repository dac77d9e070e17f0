import Mathlib.Order.Basic
import Mathlib.Order.Nat
import OpenApi.Proofs.Schema.References

/-!
# The search along references is complete

`Document.holds` searches depth first. All its branches share one list of followed pointers, and a pointer
that is on the list finds nothing, although the search of its target may still be in progress further up.
The search is exact all the same, `holds_iff`, for three reasons.

* It has an answer: `exists_probe_eq`. A reference inside another one is followed only if its text is new,
  and there are no more of these than the document has references.
* It says yes only where it has come to a flag: `exists_of_follow`.
* Where it says no, what it has followed is `Cleared`: none of the new pointers designates a schema with
  the flag, and what these refer to has been followed as well. Of the pointers that were on the list before
  nothing is said; the search from the empty list has none.

It follows that a flag is held by a schema as soon as it is held by one that it refers to,
`holds_of_mem_pointers`.
-/

namespace OpenApi

/-! ## Searches put together -/

namespace Search

theorem orElse_eq_true {first rest : Search} {visited visited' : List String} :
    first.orElse rest visited = some (true, visited') ↔
      first visited = some (true, visited') ∨
        ∃ between, first visited = some (false, between) ∧
          rest between = some (true, visited') := by
  unfold orElse
  split <;> simp_all

theorem orElse_eq_false {first rest : Search} {visited visited' : List String} :
    first.orElse rest visited = some (false, visited') ↔
      ∃ between, first visited = some (false, between) ∧
        rest between = some (false, visited') := by
  unfold orElse
  split <;> simp_all

theorem orElse_of_false {first : Search} {visited between : List String}
    (h : first visited = some (false, between)) (rest : Search) :
    first.orElse rest visited = rest between := by
  unfold orElse
  rw [h]

/-- A search that is put together from answers and from following pointers: `found` says whether one of
the answers has the flag, and `pointers` are followed on the way if none has. -/
inductive Composed : (found : Bool) → (pointers : List String) →
    ((String → Search) → Search) → Prop where
  | answer {found} : Composed found [] fun _ => .answer found
  | follow {pointer} : Composed false [pointer] fun follow => follow pointer
  | orElse {found found' pointers pointers' first rest} (hf : Composed found pointers first)
      (hr : Composed found' pointers' rest) :
      Composed (found || found') (pointers ++ pointers')
        fun follow => (first follow).orElse (rest follow)

end Search

namespace Schema

variable {access : Access}

theorem composed_node {flags : Flags} {found : Bool} {pointers : List String}
    {below : (String → Search) → Search} (h : Search.Composed found pointers below) :
    Search.Composed (flags.has access || found) pointers
      fun follow => (Search.answer (flags.has access)).orElse (below follow) :=
  .orElse .answer h

mutual

/-- The search of a schema looks for the flag in its own tree and follows the pointers of that tree. -/
theorem composed_probe (schema : Schema) :
    Search.Composed (schema.carries access) schema.pointers
      fun follow => schema.probe access follow := by
  match schema with
  | .reference flags pointer =>
    have h : Search.Composed (flags.has access || false) [pointer] _ := composed_node .follow
    rw [Bool.or_false] at h
    exact h
  | .composite _ _ members => exact composed_node (composed_probeAny members)
  | .object _ properties => exact composed_node (composed_probeProperties properties)
  | .array _ (some items) => exact composed_node (composed_probe items)
  | .array _ none | .enumeration _ _ _ | .primitive _ _ | .unknown _ => exact .answer

theorem composed_probeAny (schemas : List Schema) :
    Search.Composed (anyCarries access schemas) (allPointers schemas)
      fun follow => probeAny access follow schemas := by
  match schemas with
  | [] => exact .answer
  | schema :: rest => exact .orElse (composed_probe schema) (composed_probeAny rest)

theorem composed_probeProperties (properties : List (Property Schema)) :
    Search.Composed (anyPropertyCarries access properties) (propertyPointers properties)
      fun follow => probeProperties access follow properties := by
  match properties with
  | [] => exact .answer
  | ⟨_, _, schema⟩ :: rest => exact .orElse (composed_probe schema) (composed_probeProperties rest)

end

end Schema

namespace Document

variable {doc : Document} {access : Access} {found : Bool} {pointers : List String}
  {search : (String → Search) → Search} {follow follow' : String → Search}
  {visited visited' : List String}

/-! ## The answer yes -/

theorem of_composed_eq_true (hc : Search.Composed found pointers search)
    (h : search follow visited = some (true, visited')) :
    found = true ∨ ∃ pointer ∈ pointers, ∃ before after, follow pointer before = some (true, after) := by
  induction hc generalizing visited visited' with
  | answer =>
      cases h
      exact .inl rfl
  | follow => exact .inr ⟨_, List.mem_singleton_self _, _, _, h⟩
  | orElse _ _ ihf ihr =>
      rw [Bool.or_eq_true]
      rcases Search.orElse_eq_true.mp h with h | ⟨between, _, h⟩
      · rcases ihf h with hfound | ⟨pointer, hm, hfollow⟩
        · exact .inl (.inl hfound)
        · exact .inr ⟨pointer, List.mem_append_left _ hm, hfollow⟩
      · rcases ihr h with hfound | ⟨pointer, hm, hfollow⟩
        · exact .inl (.inr hfound)
        · exact .inr ⟨pointer, List.mem_append_right _ hm, hfollow⟩

/-- A pointer whose search finds the flag leads to a schema that carries it. -/
theorem exists_of_follow {depth : Nat} {start : String}
    (h : doc.follow access depth start visited = some (true, visited')) :
    ∃ pointer target, Relation.ReflTransGen doc.Refers start pointer ∧
      doc.schemaAt? pointer = some target ∧ target.carries access = true := by
  induction depth generalizing start visited visited' with
  | zero => cases h
  | succ depth ih =>
      unfold Document.follow at h
      split at h
      · cases h
      · split at h
        · cases h
        · next target ht =>
            rcases of_composed_eq_true target.composed_probe h with hc | ⟨next, hm, _, _, hnext⟩
            · exact ⟨start, target, .refl, ht, hc⟩
            · obtain ⟨pointer, found, hreach, hf, hc⟩ := ih hnext
              exact ⟨pointer, found, hreach.head (refers_iff.mpr ⟨target, ht, hm⟩), hf, hc⟩

/-! ## The answer no -/

/-- What a search without success leaves behind: no pointer that it has followed designates a schema with
the flag, and the pointers of these schemas have been followed too. The pointers from before may still be
in progress. -/
structure Cleared (doc : Document) (access : Access) (visited visited' : List String) : Prop where
  subset : visited ⊆ visited'
  clear : ∀ {pointer target}, pointer ∈ visited' → pointer ∉ visited →
    doc.schemaAt? pointer = some target → target.carries access = false ∧ target.pointers ⊆ visited'

theorem Cleared.refl : doc.Cleared access visited visited where
  subset := List.Subset.refl _
  clear hm hn := absurd hm hn

theorem Cleared.trans {between : List String} (h : doc.Cleared access visited between)
    (h' : doc.Cleared access between visited') : doc.Cleared access visited visited' where
  subset := List.Subset.trans h.subset h'.subset
  clear {pointer target} hm hn ht := by
    by_cases hb : pointer ∈ between
    · obtain ⟨hc, hp⟩ := h.clear hb hn ht
      exact ⟨hc, List.Subset.trans hp h'.subset⟩
    · exact h'.clear hm hb ht

theorem of_composed_eq_false (hc : Search.Composed found pointers search)
    (hfollow : ∀ {pointer visited visited'}, follow pointer visited = some (false, visited') →
      doc.Cleared access visited visited' ∧ pointer ∈ visited')
    (h : search follow visited = some (false, visited')) :
    doc.Cleared access visited visited' ∧ found = false ∧ pointers ⊆ visited' := by
  induction hc generalizing visited visited' with
  | answer =>
      cases h
      exact ⟨.refl, rfl, List.nil_subset _⟩
  | follow =>
      obtain ⟨hcleared, hm⟩ := hfollow h
      exact ⟨hcleared, rfl, List.cons_subset.mpr ⟨hm, List.nil_subset _⟩⟩
  | orElse _ _ ihf ihr =>
      obtain ⟨between, h, h'⟩ := Search.orElse_eq_false.mp h
      obtain ⟨hcleared, hfound, hsub⟩ := ihf h
      obtain ⟨hcleared', hfound', hsub'⟩ := ihr h'
      refine ⟨hcleared.trans hcleared', ?_, ?_⟩
      · rw [hfound, hfound']
        rfl
      · exact List.append_subset.mpr ⟨List.Subset.trans hsub hcleared'.subset, hsub'⟩

theorem cleared_of_follow {depth : Nat} {pointer : String}
    (h : doc.follow access depth pointer visited = some (false, visited')) :
    doc.Cleared access visited visited' ∧ pointer ∈ visited' := by
  induction depth generalizing pointer visited visited' with
  | zero => cases h
  | succ depth ih =>
      unfold Document.follow at h
      split at h
      · next hm =>
          cases h
          exact ⟨.refl, List.contains_iff_mem.mp hm⟩
      · split at h
        · next ht =>
            cases h
            refine ⟨⟨List.subset_cons_self _ _, fun hm hn ht' => ?_⟩, List.mem_cons_self⟩
            rcases List.mem_cons.mp hm with rfl | hm
            · rw [ht] at ht'
              cases ht'
            · exact absurd hm hn
        · next target ht =>
            obtain ⟨hcleared, hc, hp⟩ := of_composed_eq_false target.composed_probe ih h
            obtain ⟨hm, hsub⟩ := List.cons_subset.mp hcleared.subset
            refine ⟨⟨hsub, fun {other found} hother hn hf => ?_⟩, hm⟩
            -- the pointer itself was in progress below, and is cleared only now
            by_cases heq : other = pointer
            · rw [heq, ht] at hf
              cases hf
              exact ⟨hc, hp⟩
            · exact hcleared.clear hother (by simp [heq, hn]) hf

/-! ## There is an answer -/

/-- The references of the document whose texts have not been followed yet. -/
def unseen (doc : Document) (visited : List String) : Nat :=
  doc.root.references.countP (!visited.contains ·)

theorem unseen_le_of_subset (h : visited ⊆ visited') : doc.unseen visited' ≤ doc.unseen visited := by
  apply List.countP_mono_left
  intro text _ ht
  simp only [Bool.not_eq_true', List.contains_eq_mem, decide_eq_false_iff_not] at ht ⊢
  exact fun hm => ht (h hm)

/-- A search has an answer if no more than `limit` references are unseen, and takes no pointer off the
list. -/
def Returns (doc : Document) (limit : Nat) (search : Search) : Prop :=
  ∀ visited, doc.unseen visited ≤ limit →
    ∃ found visited', search visited = some (found, visited') ∧ visited ⊆ visited'

theorem returns_of_composed {limit : Nat} (hc : Search.Composed found pointers search)
    (h : ∀ pointer ∈ pointers, doc.Returns limit (follow pointer)) :
    doc.Returns limit (search follow) := by
  induction hc with
  | answer => exact fun visited _ => ⟨_, visited, rfl, List.Subset.refl _⟩
  | follow => exact h _ (List.mem_singleton_self _)
  | orElse _ _ ihf ihr =>
      intro visited hlimit
      have hrest := ihr fun pointer hm => h pointer (List.mem_append_right _ hm)
      obtain ⟨found, between, hfirst, hsub⟩ :=
        ihf (fun pointer hm => h pointer (List.mem_append_left _ hm)) visited hlimit
      cases found with
      | true => exact ⟨true, between, Search.orElse_eq_true.mpr (.inl hfirst), hsub⟩
      | false =>
          have hless : doc.unseen between ≤ doc.unseen visited := unseen_le_of_subset hsub
          obtain ⟨found', visited', hrest, hsub'⟩ := hrest between (by omega)
          exact ⟨found', visited', (Search.orElse_of_false hfirst _).trans hrest,
            List.Subset.trans hsub hsub'⟩

/-- One more reference is followed if those inside it are. -/
theorem exists_follow_succ {depth : Nat} {pointer : String}
    (h : pointer ∉ visited → ∀ next ∈ doc.root.references,
      doc.Returns (doc.unseen (pointer :: visited)) (doc.follow access depth next)) :
    ∃ found visited', doc.follow access (depth + 1) pointer visited = some (found, visited') ∧
      visited ⊆ visited' := by
  unfold Document.follow
  split
  · exact ⟨false, visited, rfl, List.Subset.refl _⟩
  · next hn =>
      split
      · exact ⟨false, _, rfl, List.subset_cons_self _ _⟩
      · next target ht =>
          have hnext := h fun hm => hn (List.contains_iff_mem.mpr hm)
          have hreturns : doc.Returns _ (target.probe access (doc.follow access depth)) :=
            returns_of_composed target.composed_probe fun next hm => hnext next
              (successors_subset_references doc pointer (refers_iff.mpr ⟨target, ht, hm⟩))
          obtain ⟨found, visited', hprobe, hsub⟩ := hreturns _ le_rfl
          exact ⟨found, visited', hprobe, (List.cons_subset.mp hsub).2⟩

theorem returns_follow_of_mem {depth limit : Nat} {pointer : String}
    (hm : pointer ∈ doc.root.references) (h : limit < depth) :
    doc.Returns limit (doc.follow access depth pointer) := by
  induction depth generalizing limit pointer with
  | zero => omega
  | succ depth ih =>
      intro visited hlimit
      refine exists_follow_succ fun hn next hnext => ih hnext ?_
      have hless : doc.unseen (pointer :: visited) < doc.unseen visited := countP_unseen_lt hm hn
      omega

theorem returns_probe {depth : Nat} (schema : Schema) (h : doc.searchDepth ≤ depth) :
    doc.Returns doc.root.references.length (schema.probe access (doc.follow access depth)) := by
  refine returns_of_composed schema.composed_probe fun pointer _ visited hlimit => ?_
  unfold searchDepth at h
  obtain ⟨depth, rfl⟩ : ∃ less, depth = less + 1 := ⟨depth - 1, by omega⟩
  refine exists_follow_succ fun _ next hnext => returns_follow_of_mem hnext ?_
  have hless : doc.unseen (pointer :: visited) ≤ doc.root.references.length :=
    List.countP_le_length
  omega

/-! ## More depth changes nothing -/

theorem composed_mono (hc : Search.Composed found pointers search)
    (h : ∀ {pointer visited result}, follow pointer visited = some result →
      follow' pointer visited = some result) {result : Bool × List String}
    (hs : search follow visited = some result) : search follow' visited = some result := by
  induction hc generalizing visited result with
  | answer => exact hs
  | follow => exact h hs
  | orElse _ _ ihf ihr =>
      obtain ⟨found, visited'⟩ := result
      cases found with
      | true =>
          refine Search.orElse_eq_true.mpr ?_
          rcases Search.orElse_eq_true.mp hs with hs | ⟨between, hs, hs'⟩
          · exact .inl (ihf hs)
          · exact .inr ⟨between, ihf hs, ihr hs'⟩
      | false =>
          obtain ⟨between, hs, hs'⟩ := Search.orElse_eq_false.mp hs
          exact Search.orElse_eq_false.mpr ⟨between, ihf hs, ihr hs'⟩

theorem follow_succ {depth : Nat} {pointer : String} {result : Bool × List String}
    (h : doc.follow access depth pointer visited = some result) :
    doc.follow access (depth + 1) pointer visited = some result := by
  induction depth generalizing pointer visited result with
  | zero => cases h
  | succ depth ih =>
      unfold Document.follow at h ⊢
      split at h
      · next hm => rwa [if_pos hm]
      · next hm =>
          rw [if_neg hm]
          split at h
          · exact h
          · next target _ => exact composed_mono target.composed_probe ih h

/-- Whatever the bound, from a certain one on the search has the same answer. -/
theorem exists_probe_eq (doc : Document) (access : Access) (schema : Schema) :
    ∃ visited, ∀ depth, doc.searchDepth ≤ depth →
      schema.probe access (doc.follow access depth) [] = some (doc.holds access schema, visited) := by
  obtain ⟨found, visited, hprobe, _⟩ : ∃ found visited,
      schema.probe access (doc.follow access doc.searchDepth) [] = some (found, visited) ∧ _ :=
    returns_probe schema le_rfl [] List.countP_le_length
  have hholds : doc.holds access schema = found := by
    rw [holds, hprobe]
    rfl
  refine ⟨visited, fun depth h => ?_⟩
  induction depth, h using Nat.le_induction with
  | base => rw [hprobe, hholds]
  | succ depth _ ih => exact composed_mono schema.composed_probe follow_succ ih

/-! ## The search is exact -/

/-- A schema holds a flag if it carries it, or if its references lead to a schema that does. -/
theorem holds_iff {schema : Schema} :
    doc.holds access schema = true ↔
      schema.carries access = true ∨ ∃ start ∈ schema.pointers, ∃ pointer target,
        Relation.ReflTransGen doc.Refers start pointer ∧
          doc.schemaAt? pointer = some target ∧ target.carries access = true := by
  obtain ⟨visited, hprobe⟩ := exists_probe_eq doc access schema
  replace hprobe := hprobe _ le_rfl
  cases hh : doc.holds access schema with
  | true =>
      rw [hh] at hprobe
      refine iff_of_true rfl ?_
      rcases of_composed_eq_true schema.composed_probe hprobe with hc | ⟨start, hm, _, _, hf⟩
      · exact .inl hc
      · exact .inr ⟨start, hm, exists_of_follow hf⟩
  | false =>
      rw [hh] at hprobe
      obtain ⟨hcleared, hown, hsub⟩ :=
        of_composed_eq_false schema.composed_probe cleared_of_follow hprobe
      refine iff_of_false Bool.false_ne_true ?_
      rintro (hc | ⟨start, hm, pointer, target, hreach, ht, hc⟩)
      · rw [hown] at hc
        cases hc
      · -- what has been followed is closed, so the end of the chain has been followed and is clear
        have hvisited : pointer ∈ visited := by
          clear ht
          induction hreach with
          | refl => exact hsub hm
          | tail _ hnext ih =>
              obtain ⟨between, hb, hnext⟩ := refers_iff.mp hnext
              exact (hcleared.clear ih List.not_mem_nil hb).2 hnext
        rw [(hcleared.clear hvisited List.not_mem_nil ht).1] at hc
        cases hc

/-- A schema holds every flag that is held by a schema it refers to. -/
theorem holds_of_mem_pointers {schema target : Schema} {pointer : String}
    (hm : pointer ∈ schema.pointers) (ht : doc.schemaAt? pointer = some target)
    (h : doc.holds access target = true) : doc.holds access schema = true := by
  refine holds_iff.mpr (.inr ?_)
  rcases holds_iff.mp h with hc | ⟨start, hs, found, schema', hreach, hf, hc⟩
  · exact ⟨pointer, hm, pointer, target, .refl, ht, hc⟩
  · exact ⟨pointer, hm, found, schema', hreach.head (refers_iff.mpr ⟨target, ht, hs⟩), hf, hc⟩

end Document

end OpenApi
