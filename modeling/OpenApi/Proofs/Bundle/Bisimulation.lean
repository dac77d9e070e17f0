import OpenApi.Proofs.Json.Path

/-!
# Chains of references, and when two graphs mean the same

A graph has nodes that hold values; a node that holds a Reference Object may lead to another. Its
chain is the nodes that are met from there on: it ends at a node that is no Reference Object, or it
goes on for ever, or it breaks off.

`Matches` compares two nodes of two graphs by what their chains come to, and leaves what is below the
two ends to a relation between nodes. A relation all of whose pairs match is a bisimulation.
`isBisimulation_of_settles` reduces this to one round: from two related nodes the first chain comes
to a node where both sides rest, or where both go one reference on and are related again. The first
chain may need several steps for this while the second takes none.
-/

namespace OpenApi

/-- Nodes with values, references from node to node, and the nodes one step below. -/
structure Graph (Node : Type) where
  value? : Node → Option Json
  next? : Node → Option Node
  below : Node → Step → Node
  /-- Only a Reference Object leads on. -/
  next?_eq_none : ∀ {n value}, value? n = some value → value.reference? = none → next? n = none

namespace Graph

variable {M N : Type} {g : Graph M} {h : Graph N}

/-- The node after some references, if the chain goes that far. -/
def follow? (g : Graph M) : Nat → M → Option M
  | 0, m => some m
  | count + 1, m => (g.next? m).bind (g.follow? count)

/-- The chain of a node ends at a node that is no Reference Object. -/
def Ends (g : Graph M) (m m' : M) : Prop :=
  ∃ count value, g.follow? count m = some m' ∧ g.value? m' = some value ∧ value.reference? = none

/-- The chain of a node goes on for ever. -/
def Endless (g : Graph M) (m : M) : Prop := ∀ count, ∃ m', g.follow? count m = some m'

theorem follow?_add (g : Graph M) (i j : Nat) (m : M) :
    g.follow? (i + j) m = (g.follow? i m).bind (g.follow? j) := by
  induction i generalizing m with
  | zero => rw [Nat.zero_add, follow?, Option.bind_some]
  | succ i ih =>
      rw [Nat.succ_add, follow?, follow?]
      cases g.next? m with
      | none => rfl
      | some m' => exact ih m'

theorem follow?_one (g : Graph M) (m : M) : g.follow? 1 m = g.next? m := by
  unfold follow?
  cases g.next? m <;> rfl

theorem exists_follow?_of_le {i j : Nat} {m m' : M} (hle : i ≤ j)
    (hj : g.follow? j m = some m') : ∃ m'', g.follow? i m = some m'' := by
  obtain ⟨k, rfl⟩ := Nat.exists_eq_add_of_le hle
  rw [follow?_add, Option.bind_eq_some_iff] at hj
  obtain ⟨m'', hi, _⟩ := hj
  exact ⟨m'', hi⟩

/-- A chain that ends is not endless. -/
theorem not_endless_of_ends {m m' : M} (he : g.Ends m m') : ¬g.Endless m := by
  obtain ⟨count, value, hf, hv, hr⟩ := he
  intro hall
  obtain ⟨m'', hs⟩ := hall (count + 1)
  rw [follow?_add, hf, Option.bind_some, follow?_one, g.next?_eq_none hv hr] at hs
  simp at hs

/-- No reference leads away from a node that is no Reference Object. -/
theorem eq_of_follow? {count : Nat} {m m' : M} {value : Json} (hv : g.value? m = some value)
    (hr : value.reference? = none) (hf : g.follow? count m = some m') : m' = m := by
  cases count with
  | zero =>
      cases hf
      rfl
  | succ count =>
      rw [follow?, g.next?_eq_none hv hr] at hf
      simp at hf

/-- A chain that starts at a node that is no Reference Object ends there. -/
theorem eq_of_ends {m m' : M} {value : Json} (hv : g.value? m = some value)
    (hr : value.reference? = none) (he : g.Ends m m') : m' = m := by
  obtain ⟨count, _, hf, _, _⟩ := he
  exact eq_of_follow? hv hr hf

/-- A chain whose first node leads to itself does not end. -/
theorem not_ends_of_loop {m m' : M} (hloop : g.next? m = some m) : ¬g.Ends m m' := by
  rintro ⟨count, value, hf, hv, hr⟩
  have hstay : ∀ count, g.follow? count m = some m := by
    intro count
    induction count with
    | zero => rfl
    | succ count ih => rw [follow?, hloop, Option.bind_some, ih]
  rw [hstay] at hf
  cases hf
  rw [g.next?_eq_none hv hr] at hloop
  simp at hloop

end Graph

/-! ## Alike values and matching nodes -/

/-- Two values are alike up to a relation between what is below them: the same scalar, arrays of one
length, or objects with the same names in the same order, of which the second one has at its end what
may be added to these names. -/
inductive Alike (below : Step → Prop) (adds : List String → List String → Prop) :
    Json → Json → Prop where
  | scalar {value : Json} (h : value.isScalar = true) : Alike below adds value value
  | array {items items' : List Json} (hl : items'.length = items.length)
      (h : ∀ index < items.length, below (.item index)) :
      Alike below adds (.array items) (.array items')
  | object {members members' : Members} {added : List String} (ha : adds members.names added)
      (hn : members'.names = members.names ++ added)
      (h : ∀ name ∈ members.names, below (.member name)) :
      Alike below adds (.object members) (.object members')

section

variable {M N : Type} {g : Graph M} {h : Graph N} {adds : N → List String → List String → Prop}
  {R : M → N → Prop}

/-- Two nodes at which both chains rest hold alike values. -/
def Rests (g : Graph M) (h : Graph N) (adds : N → List String → List String → Prop)
    (R : M → N → Prop) (m : M) (n : N) : Prop :=
  ∃ value value', g.value? m = some value ∧ h.value? n = some value' ∧
    value.reference? = none ∧ value'.reference? = none ∧
    Alike (fun step => R (g.below m step) (h.below n step)) (adds n) value value'

/-- The chains of two nodes both go on for ever, or come to two nodes with alike values. -/
def Matches (g : Graph M) (h : Graph N) (adds : N → List String → List String → Prop)
    (R : M → N → Prop) (m : M) (n : N) : Prop :=
  (g.Endless m ∧ h.Endless n) ∨
    ∃ m' n', g.Ends m m' ∧ h.Ends n n' ∧ Rests g h adds R m' n'

/-- Whatever is related matches. -/
def IsBisimulation (g : Graph M) (h : Graph N) (adds : N → List String → List String → Prop)
    (R : M → N → Prop) : Prop :=
  ∀ m n, R m n → Matches g h adds R m n

/-- A node that is no Reference Object matches only nodes whose chain comes to rest against it. -/
theorem Matches.rests {m : M} {n : N} {value : Json} (hm : Matches g h adds R m n)
    (hv : g.value? m = some value) (hr : value.reference? = none) :
    ∃ n', h.Ends n n' ∧ Rests g h adds R m n' := by
  rcases hm with ⟨hend, _⟩ | ⟨m', n', he, he', hrest⟩
  · exact absurd hend (Graph.not_endless_of_ends ⟨0, value, rfl, hv, hr⟩)
  · rw [Graph.eq_of_ends hv hr he] at hrest
    exact ⟨n', he', hrest⟩

/-- At rest the members of two objects are related. -/
theorem Rests.member {m : M} {n : N} {members : Members} {name : String}
    (hrest : Rests g h adds R m n) (hv : g.value? m = some (.object members))
    (hname : name ∈ members.names) : R (g.below m (.member name)) (h.below n (.member name)) := by
  obtain ⟨value, value', hv', _, _, _, halike⟩ := hrest
  cases hv'.symm.trans hv
  cases halike with
  | scalar hscalar => cases hscalar
  | object _ _ hbelow => exact hbelow name hname

/-- From two related nodes the first chain comes to a node where both sides rest, or where both go one
reference on and are related again. -/
def Settles (g : Graph M) (h : Graph N) (adds : N → List String → List String → Prop)
    (R : M → N → Prop) (m : M) (n : N) : Prop :=
  ∃ count m', g.follow? count m = some m' ∧
    (Rests g h adds R m' n ∨
      ∃ m'' n', g.next? m' = some m'' ∧ h.next? n = some n' ∧ R m'' n')

/-- Two related chains come to rest together, or they both have gone on for `count` references and
are related still. -/
theorem rests_or_follows (hR : ∀ {m n}, R m n → Settles g h adds R m n) {m : M} {n : N}
    (hmn : R m n) (count : Nat) :
    (∃ m' n', g.Ends m m' ∧ h.Ends n n' ∧ Rests g h adds R m' n') ∨
      ∃ i m' n', count ≤ i ∧ g.follow? i m = some m' ∧ h.follow? count n = some n' ∧ R m' n' := by
  induction count with
  | zero => exact .inr ⟨0, m, n, Nat.le_refl _, rfl, rfl, hmn⟩
  | succ count ih =>
      rcases ih with hrest | ⟨i, m₁, n₁, hle, hm₁, hn₁, hrel⟩
      · exact .inl hrest
      · obtain ⟨j, m₂, hm₂, hnext⟩ := hR hrel
        -- one round more: the first chain takes `j` references before both take one
        have hij : g.follow? (i + j) m = some m₂ := by
          rw [Graph.follow?_add, hm₁, Option.bind_some, hm₂]
        rcases hnext with hrest | ⟨m₃, n₂, hm₃, hn₂, hrel'⟩
        · have hends := hrest
          obtain ⟨value, value', hv, hv', hr, hr', _⟩ := hends
          exact .inl ⟨m₂, n₁, ⟨i + j, value, hij, hv, hr⟩, ⟨count, value', hn₁, hv', hr'⟩, hrest⟩
        · refine .inr ⟨i + j + 1, m₃, n₂, by omega, ?_, ?_, hrel'⟩
          · rw [Graph.follow?_add, hij, Option.bind_some, Graph.follow?_one, hm₃]
          · rw [Graph.follow?_add, hn₁, Option.bind_some, Graph.follow?_one, hn₂]

/-- A relation whose pairs settle in one round is a bisimulation. -/
theorem isBisimulation_of_settles (hR : ∀ {m n}, R m n → Settles g h adds R m n) :
    IsBisimulation g h adds R := by
  intro m n hmn
  by_cases hrest : ∃ m' n', g.Ends m m' ∧ h.Ends n n' ∧ Rests g h adds R m' n'
  · exact .inr hrest
  · -- no round ends at rest, so there is another one after any number of them
    refine .inl ⟨fun count => ?_, fun count => ?_⟩
    · rcases rests_or_follows hR hmn count with hr | ⟨i, m', _, hle, hm', _, _⟩
      · exact absurd hr hrest
      · exact Graph.exists_follow?_of_le hle hm'
    · rcases rests_or_follows hR hmn count with hr | ⟨_, _, n', _, _, hn', _⟩
      · exact absurd hr hrest
      · exact ⟨n', hn'⟩

end

end OpenApi
