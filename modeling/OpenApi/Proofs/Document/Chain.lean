import Mathlib.Data.List.Nodup
import OpenApi.Proofs.Json.Path

/-!
# Following references to their end

`Document.Chain` is the relation that following references stands for: from a value that is a
reference to the node that it designates, and so on, with the texts of the references on the way. It
knows nothing of texts already met nor of a bound. `Document.deref_exact` says that `deref` finds the
end of the chain whenever the chain has one, and finds nothing exactly when the chain goes on for
ever or comes to a reference that designates no node.

The search stops where a text comes back. That this loses nothing has two halves. A text that comes
back leads to the same node again, so the chain has no end (`Chain.endless_of_recurs`). And a chain
without an end brings a text back: every text on it but the first is one of the tree's, so a chain
of distinct texts is shorter than the bound (`Chain.length_lt`). Which node a text designates is all
that matters here, not how it is spelled: two spellings of one pointer are two texts, and the chain
comes back to either of them one turn later.
-/

namespace OpenApi

namespace Document

theorem references_subset_of_resolve? {doc : Document} {text : String} {value : Json}
    (h : doc.resolve? text = some value) : value.references ⊆ doc.root.references := by
  rw [resolve?, Json.resolveLocal?] at h
  split at h
  · exact Json.references_subset_of_resolve? h
  · simp at h

/-- References lead from one value to another; the texts are those of the references that are left
behind, in the order in which they are followed. -/
inductive Chain (doc : Document) : Json → List String → Json → Prop
  | nil (value : Json) : doc.Chain value [] value
  | cons {value next last : Json} {text : String} {texts : List String}
      (hr : value.reference? = some text) (hn : doc.resolve? text = some next)
      (h : doc.Chain next texts last) : doc.Chain value (text :: texts) last

/-- No reference can be followed from a value: it is none, or it designates no node. -/
def Halts (doc : Document) (value : Json) : Prop :=
  ∀ text, value.reference? = some text → doc.resolve? text = none

/-- References can be followed from a value without end. -/
def Endless (doc : Document) (value : Json) : Prop :=
  ∀ count, ∃ texts last, texts.length = count ∧ doc.Chain value texts last

variable {doc : Document} {value middle last other : Json} {text : String}
  {texts texts' seen : List String}

/-! ## Chains -/

namespace Chain

theorem append (h : doc.Chain value texts middle) (h' : doc.Chain middle texts' last) :
    doc.Chain value (texts ++ texts') last := by
  induction h with
  | nil => exact h'
  | cons hr hn _ ih => exact .cons hr hn (ih h')

theorem exists_of_append (h : doc.Chain value (texts ++ texts') last) :
    ∃ middle, doc.Chain value texts middle ∧ doc.Chain middle texts' last := by
  induction texts generalizing value with
  | nil => exact ⟨value, .nil value, h⟩
  | cons text texts ih =>
      cases h with
      | cons hr hn h =>
          obtain ⟨middle, h₁, h₂⟩ := ih h
          exact ⟨middle, .cons hr hn h₁, h₂⟩

/-- A text on a chain was followed from some holder to the node that it designates. -/
theorem exists_of_mem (h : doc.Chain value texts last) (hm : text ∈ texts) :
    ∃ before after holder next, texts = before ++ text :: after ∧ doc.Chain value before holder
      ∧ holder.reference? = some text ∧ doc.resolve? text = some next
      ∧ doc.Chain next after last := by
  obtain ⟨before, after, rfl⟩ := List.append_of_mem hm
  obtain ⟨holder, hb, ha⟩ := h.exists_of_append
  cases ha with
  | @cons _ next _ _ _ hr hn ha => exact ⟨before, after, holder, next, rfl, hb, hr, hn, ha⟩

/-- A chain to a value where nothing can be followed has every chain from the same start as its
beginning. -/
theorem isPrefix_of_halts (h : doc.Chain value texts last) (hl : doc.Halts last)
    (h' : doc.Chain value texts' other) : texts' <+: texts := by
  induction h' generalizing texts with
  | nil => exact List.nil_prefix
  | cons hr' hn' _ ih =>
      cases h with
      | nil => exact absurd (hn'.symm.trans (hl _ hr')) (by simp)
      | cons hr hn h =>
          cases hr.symm.trans hr'
          cases hn.symm.trans hn'
          exact List.cons_prefix_cons.mpr ⟨rfl, ih h⟩

/-- Where it ends is a matter of its texts. -/
theorem last_unique (h : doc.Chain value texts last) (h' : doc.Chain value texts other) :
    last = other := by
  induction h with
  | nil =>
      cases h'
      rfl
  | cons hr hn _ ih =>
      cases h' with
      | cons hr' hn' h' =>
          cases hn.symm.trans hn'
          exact ih h'

/-- A chain has at most one end. -/
theorem unique_of_halts (h : doc.Chain value texts last) (hl : doc.Halts last)
    (h' : doc.Chain value texts' other) (ho : doc.Halts other) : texts = texts' ∧ last = other := by
  have htexts : texts = texts' :=
    (h'.isPrefix_of_halts ho h).eq_of_length_le (h.isPrefix_of_halts hl h').length_le
  subst htexts
  exact ⟨rfl, h.last_unique h'⟩

/-! ## Chains without an end -/

theorem not_endless_of_halts (h : doc.Chain value texts last) (hl : doc.Halts last) :
    ¬doc.Endless value := by
  intro he
  obtain ⟨longer, other, hlen, ho⟩ := he (texts.length + 1)
  have hle := (h.isPrefix_of_halts hl ho).length_le
  omega

/-- Going on without end after some steps is going on without end. -/
theorem endless (h : doc.Chain value texts last) (hl : doc.Endless last) : doc.Endless value := by
  intro count
  obtain ⟨more, other, hlen, ho⟩ := hl count
  have hc := h.append ho
  rw [← List.take_append_drop count (texts ++ more)] at hc
  obtain ⟨middle, hm, _⟩ := hc.exists_of_append
  refine ⟨_, middle, ?_, hm⟩
  rw [List.length_take, List.length_append]
  omega

/-- A node to which references lead back can be left as often as wanted. -/
theorem endless_of_loop (h : doc.Chain value (text :: texts) value) : doc.Endless value := by
  intro count
  induction count with
  | zero => exact ⟨[], value, rfl, .nil value⟩
  | succ count ih =>
      -- one turn, and then as many steps as before, cut to the length that is wanted
      obtain ⟨more, other, hlen, ho⟩ := ih
      have hc := h.append ho
      rw [← List.take_append_drop (count + 1) (text :: texts ++ more)] at hc
      obtain ⟨middle, hm, _⟩ := hc.exists_of_append
      refine ⟨_, middle, ?_, hm⟩
      rw [List.length_take, List.length_append, List.length_cons]
      omega

/-- A chain that comes to a reference whose text was already followed has no end: the text leads to
the same node again. -/
theorem endless_of_recurs (h : doc.Chain value texts last) (hr : last.reference? = some text)
    (hm : text ∈ texts) : doc.Endless value := by
  obtain ⟨before, after, holder, next, rfl, hb, hh, hn, ha⟩ := h.exists_of_mem hm
  have hloop : doc.Chain last (text :: after) last := .cons hr hn ha
  exact h.endless hloop.endless_of_loop

/-! ## The length of a chain -/

/-- A chain stays among the references of the tree. -/
theorem references_subset (h : doc.Chain value texts last)
    (hv : value.references ⊆ doc.root.references) : last.references ⊆ doc.root.references := by
  induction h with
  | nil => exact hv
  | cons _ hn _ ih => exact ih (references_subset_of_resolve? hn)

/-- Every text on a chain but the first is one of the tree's. -/
theorem subset_references (h : doc.Chain value texts last)
    (hv : value.references ⊆ doc.root.references) : texts ⊆ doc.root.references := by
  induction h with
  | nil => exact List.nil_subset _
  | cons hr hn _ ih =>
      exact List.cons_subset.mpr ⟨hv (Json.mem_references_of_reference? hr),
        ih (references_subset_of_resolve? hn)⟩

theorem length_le (h : doc.Chain value texts last) (hd : texts.Nodup) :
    texts.length ≤ doc.root.references.length + 1 := by
  cases h with
  | nil => exact Nat.zero_le _
  | cons hr hn h =>
      have hsub := h.subset_references (references_subset_of_resolve? hn)
      exact Nat.succ_le_succ ((List.nodup_cons.mp hd).2.length_le_of_subset hsub)

/-- A chain of distinct texts is shorter than the bound. -/
theorem length_lt (h : doc.Chain value texts last) (hd : texts.Nodup) :
    texts.length < doc.chainBound := by
  have hle := h.length_le hd
  rw [chainBound]
  omega

end Chain

/-! ## Where following stops -/

/-- What a chain of distinct texts comes to where it cannot be followed to another one: a value that
is no reference, a reference that designates no node, or one whose text was already followed. -/
structure Stop (doc : Document) (value : Json) (texts : List String) (last : Json) : Prop where
  chain : doc.Chain value texts last
  nodup : texts.Nodup
  stops : ∀ text, last.reference? = some text → text ∈ texts ∨ doc.resolve? text = none

/-- Following references comes to a stop. -/
theorem exists_stop (doc : Document) (value : Json) : ∃ texts last, doc.Stop value texts last := by
  by_contra hno
  push Not at hno
  -- were there no stop, distinct texts could be followed in any number
  have hlong : ∀ count, ∃ texts last,
      doc.Chain value texts last ∧ texts.Nodup ∧ texts.length = count := by
    intro count
    induction count with
    | zero => exact ⟨[], value, .nil value, List.nodup_nil, rfl⟩
    | succ count ih =>
        obtain ⟨texts, last, hc, hd, hlen⟩ := ih
        have hgo : ¬∀ text, last.reference? = some text →
            text ∈ texts ∨ doc.resolve? text = none := fun hs => hno texts last ⟨hc, hd, hs⟩
        push Not at hgo
        obtain ⟨text, hr, hnew, hn⟩ := hgo
        obtain ⟨next, hn⟩ := Option.ne_none_iff_exists'.mp hn
        refine ⟨texts ++ [text], next, hc.append (.cons hr hn (.nil next)), ?_, ?_⟩
        · rw [← List.concat_eq_append]
          exact hd.concat hnew
        · rw [List.length_append, hlen, List.length_singleton]
  obtain ⟨texts, last, hc, hd, hlen⟩ := hlong doc.chainBound
  exact absurd (hc.length_lt hd) (by omega)

/-- One step of following for each text of a chain, with the texts put where they are looked up. -/
theorem derefFrom_chain (h : doc.Chain value texts last) (hd : texts.Nodup)
    (hs : ∀ text ∈ texts, text ∉ seen) (fuel : Nat) :
    doc.derefFrom (texts.length + fuel) seen value
      = doc.derefFrom fuel (texts.reverse ++ seen) last := by
  induction h generalizing seen with
  | nil =>
      rw [List.length_nil, Nat.zero_add]
      rfl
  | @cons value next last text texts hr hn _ ih =>
      obtain ⟨hnew, hd⟩ := List.nodup_cons.mp hd
      have hunseen : ¬seen.contains text = true := by
        rw [List.contains_iff_mem]
        exact hs text List.mem_cons_self
      rw [List.length_cons, Nat.add_right_comm, derefFrom, hr]
      dsimp only
      rw [if_neg hunseen, hn, Option.bind_some, ih hd ?_, List.reverse_cons, List.append_assoc]
      · rfl
      · intro other ho
        refine List.not_mem_cons_of_ne_of_not_mem ?_ (hs other (List.mem_cons_of_mem _ ho))
        exact fun he => hnew (he ▸ ho)

/-- With a bound beyond its texts, what is found is the value at the stop, if that is no reference. -/
theorem Stop.derefFrom_eq (h : doc.Stop value texts last) {fuel : Nat}
    (hfuel : texts.length < fuel) :
    doc.derefFrom fuel [] value = if last.reference?.isNone then some last else none := by
  obtain ⟨fuel, rfl⟩ : ∃ more, fuel = texts.length + (more + 1) :=
    ⟨fuel - texts.length - 1, by omega⟩
  rw [derefFrom_chain h.chain h.nodup (fun _ _ => List.not_mem_nil), derefFrom]
  cases hr : last.reference? with
  | none => rfl
  | some text =>
      dsimp only
      split
      · rfl
      · next hnew =>
          rcases h.stops text hr with hm | hn
          · rw [List.append_nil, List.contains_iff_mem, List.mem_reverse] at hnew
            exact absurd hm hnew
          · rw [hn]
            rfl

/-- Any bound from `chainBound` on finds the same. -/
theorem derefFrom_of_le {fuel : Nat} (hfuel : doc.chainBound ≤ fuel) :
    doc.derefFrom fuel [] value = doc.deref value := by
  obtain ⟨texts, last, hs⟩ := doc.exists_stop value
  have hlt := hs.chain.length_lt hs.nodup
  rw [deref, hs.derefFrom_eq hlt, hs.derefFrom_eq (Nat.lt_of_lt_of_le hlt hfuel)]

theorem Stop.deref_eq (h : doc.Stop value texts last) :
    doc.deref value = if last.reference?.isNone then some last else none :=
  h.derefFrom_eq (h.chain.length_lt h.nodup)

/-! ## The search is exact -/

theorem halts_of_reference?_eq_none (h : value.reference? = none) : doc.Halts value := by
  intro text hr
  rw [h] at hr
  cases hr

theorem halts_of_dangling (hr : value.reference? = some text) (hn : doc.resolve? text = none) :
    doc.Halts value := by
  intro other ho
  cases hr.symm.trans ho
  exact hn

theorem deref_eq_some_iff {target : Json} :
    doc.deref value = some target
      ↔ (∃ texts, doc.Chain value texts target) ∧ target.reference? = none := by
  obtain ⟨texts, last, hs⟩ := doc.exists_stop value
  rw [hs.deref_eq]
  constructor
  · intro h
    split at h
    · next hr =>
        cases h
        exact ⟨⟨texts, hs.chain⟩, Option.isNone_iff_eq_none.mp hr⟩
    · cases h
  · rintro ⟨⟨texts', hc⟩, hr⟩
    have hhalt : doc.Halts target := halts_of_reference?_eq_none hr
    have hlast : doc.Halts last := by
      intro text hl
      refine (hs.stops text hl).resolve_left fun hm => ?_
      exact hc.not_endless_of_halts hhalt (hs.chain.endless_of_recurs hl hm)
    obtain ⟨_, rfl⟩ := hs.chain.unique_of_halts hlast hc hhalt
    rw [hr]
    rfl

theorem deref_eq_none_iff :
    doc.deref value = none ↔ doc.Endless value ∨ ∃ texts last text, doc.Chain value texts last
      ∧ last.reference? = some text ∧ doc.resolve? text = none := by
  constructor
  · intro h
    obtain ⟨texts, last, hs⟩ := doc.exists_stop value
    rw [hs.deref_eq] at h
    cases hr : last.reference? with
    | none =>
        rw [hr] at h
        cases h
    | some text =>
        rcases hs.stops text hr with hm | hn
        · exact .inl (hs.chain.endless_of_recurs hr hm)
        · exact .inr ⟨texts, last, text, hs.chain, hr, hn⟩
  · rw [Option.eq_none_iff_forall_ne_some]
    intro h target ht
    obtain ⟨⟨texts, hc⟩, hr⟩ := deref_eq_some_iff.mp ht
    have hhalt : doc.Halts target := halts_of_reference?_eq_none hr
    rcases h with he | ⟨texts', last, text, hc', hr', hn⟩
    · exact hc.not_endless_of_halts hhalt he
    · obtain ⟨_, rfl⟩ := hc.unique_of_halts hhalt hc' (halts_of_dangling hr' hn)
      exact absurd (hr.symm.trans hr') (by simp)

theorem references_subset_of_deref {target : Json} (hv : value.references ⊆ doc.root.references)
    (h : doc.deref value = some target) : target.references ⊆ doc.root.references := by
  obtain ⟨⟨texts, hc⟩, _⟩ := deref_eq_some_iff.mp h
  exact hc.references_subset hv

/-- Dereferencing is exact on every graph of references. It finds the value to which references lead
in finitely many steps and from which none leads on, whichever that is; it finds nothing exactly if
the chain has no end or comes to a reference that designates no node. Its bound never cuts a chain
short: no chain of distinct texts is as long, and any larger bound finds the same. -/
theorem deref_exact (doc : Document) (value : Json) :
    (∀ target, doc.deref value = some target
      ↔ (∃ texts, doc.Chain value texts target) ∧ target.reference? = none)
    ∧ (doc.deref value = none ↔ doc.Endless value ∨ ∃ texts last text, doc.Chain value texts last
        ∧ last.reference? = some text ∧ doc.resolve? text = none)
    ∧ (∀ texts last, doc.Chain value texts last → texts.Nodup → texts.length < doc.chainBound)
    ∧ ∀ fuel, doc.chainBound ≤ fuel → doc.derefFrom fuel [] value = doc.deref value :=
  ⟨fun _ => deref_eq_some_iff, deref_eq_none_iff, fun _ _ hc hd => hc.length_lt hd,
    fun _ hfuel => derefFrom_of_le hfuel⟩

/-- Two spellings of one pointer are two texts; the chain turns once more before one comes back. -/
example : (deref ⟨"mem:/r", .object [("a", .object [("$ref", .string "#/%61")])]⟩
    (.object [("$ref", .string "#/a")])).isNone = true := by decide +kernel

end Document

end OpenApi
