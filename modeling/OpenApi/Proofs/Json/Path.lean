import OpenApi.Document

/-!
# Paths into a JSON value

A path is a list of steps, each to a member by its name or to an item by its index; unlike a
pointer it has one spelling. `Json.at?` reads the node at the end of a path, and `Json.locate?`
turns the fragment of a reference into the path that it takes in one tree, so that two spellings of
a fragment can be compared by where they lead. `resolve?_eq_locate?` says that resolving a fragment
is reading the node at its path.

A tree is `proper` if no object in it repeats a name. Every value that a program holds is: an object
is a map. The list of members does not say so by itself, and reading the first member of a name is
reading the only one just in proper trees.
-/

namespace OpenApi

/-- One step into a tree. -/
inductive Step where
  | member (name : String)
  | item (index : Nat)
  deriving DecidableEq, Repr

/-- The steps from the root of a tree to a node. -/
abbrev Path := List Step

namespace Json

/-- Whether a value has nothing below it. -/
def isScalar : Json → Bool
  | array _ => false
  | object _ => false
  | _ => true

/-! ## Reading the node at a path -/

/-- The value one step into a tree. -/
def step? : Step → Json → Option Json
  | .member name, object members => members.lookup name
  | .item index, array items => items[index]?
  | _, _ => none

/-- The node at the end of a path. -/
def at? (tree : Json) : Path → Option Json
  | [] => some tree
  | step :: rest => (tree.step? step).bind (·.at? rest)

@[simp]
theorem at?_nil (tree : Json) : tree.at? [] = some tree := rfl

theorem at?_cons (tree : Json) (step : Step) (rest : Path) :
    tree.at? (step :: rest) = (tree.step? step).bind (·.at? rest) := rfl

theorem at?_append (tree : Json) (p q : Path) :
    tree.at? (p ++ q) = (tree.at? p).bind (·.at? q) := by
  induction p generalizing tree with
  | nil => rfl
  | cons step rest ih =>
      rw [List.cons_append, at?_cons, at?_cons]
      cases tree.step? step with
      | none => rfl
      | some child => exact ih child

/-- A node and one step more. -/
theorem at?_concat (tree : Json) (p : Path) (step : Step) :
    tree.at? (p ++ [step]) = (tree.at? p).bind (step? step) := by
  rw [at?_append]
  cases tree.at? p with
  | none => rfl
  | some node => simp [at?_cons]

theorem member?_eq_step? (name : String) (value : Json) :
    value.member? name = value.step? (.member name) := by
  cases value <;> rfl

theorem at?_member {tree node : Json} {p : Path} {members : Members} {name : String}
    (h : tree.at? p = some (object members)) (hm : members.lookup name = some node) :
    tree.at? (p ++ [.member name]) = some node := by
  rw [at?_concat, h]
  exact hm

theorem at?_item {tree node : Json} {p : Path} {items : List Json} {index : Nat}
    (h : tree.at? p = some (array items)) (hi : items[index]? = some node) :
    tree.at? (p ++ [.item index]) = some node := by
  rw [at?_concat, h]
  exact hi

/-! ## Above a path -/

/-- All values that a path takes a step from have a property. -/
def AllAbove (P : Json → Prop) (tree : Json) (path : Path) : Prop :=
  ∀ above step below holder, path = above ++ step :: below → tree.at? above = some holder → P holder

theorem AllAbove.head {P : Json → Prop} {tree : Json} {step : Step} {rest : Path}
    (h : tree.AllAbove P (step :: rest)) : P tree :=
  h [] step rest tree rfl rfl

theorem AllAbove.tail {P : Json → Prop} {tree child : Json} {step : Step} {rest : Path}
    (h : tree.AllAbove P (step :: rest)) (hc : tree.step? step = some child) :
    child.AllAbove P rest := by
  intro above step' below holder heq ha
  refine h (step :: above) step' below holder ?_ ?_
  · rw [heq, List.cons_append]
  · rw [at?_cons, hc]
    exact ha

theorem allAbove_nil (P : Json → Prop) (tree : Json) : tree.AllAbove P [] := by
  intro above step below holder heq
  cases above <;> cases heq

theorem allAbove_cons {P : Json → Prop} {tree : Json} {step : Step} {rest : Path} :
    tree.AllAbove P (step :: rest) ↔ P tree ∧ ∀ child ∈ tree.step? step, child.AllAbove P rest := by
  refine ⟨fun h => ⟨h.head, fun _ hc => h.tail hc⟩, fun ⟨hhead, htail⟩ => ?_⟩
  intro above step' below holder heq ha
  cases above with
  | nil =>
      cases ha
      exact hhead
  | cons first above =>
      cases heq
      obtain ⟨child, hc, ha⟩ := Option.bind_eq_some_iff.mp ha
      exact htail child hc above step' below holder rfl ha

/-- Whether all values above a path have a property is decided step by step. -/
instance decidableAllAbove (P : Json → Prop) [DecidablePred P] :
    (path : Path) → (tree : Json) → Decidable (tree.AllAbove P path)
  | [], tree => .isTrue (allAbove_nil P tree)
  | step :: rest, tree =>
    have : DecidablePred fun child : Json => child.AllAbove P rest := decidableAllAbove P rest
    decidable_of_iff (P tree ∧ ∀ child ∈ tree.step? step, child.AllAbove P rest)
      allAbove_cons.symm

/-! ## The path of a fragment -/

/-- The step that a token takes from a value. -/
def stepOf? (token : String) : Json → Option Step
  | object members =>
    let name := Pointer.decodeToken token
    if (members.lookup name).isSome then some (.member name) else none
  | array items =>
    (Pointer.index? (Pointer.decodeToken token)).bind fun index =>
      if index < items.length then some (.item index) else none
  | _ => none

/-- The path that tokens take from a value. -/
def trace? (value : Json) : List String → Option Path
  | [] => some []
  | token :: rest =>
    (value.stepOf? token).bind fun step =>
      (value.step? step).bind fun child => (child.trace? rest).map (step :: ·)

/-- The path that a fragment takes in a tree. -/
def locate? (tree : Json) (fragment : String) : Option Path :=
  (Pointer.parse? fragment).bind fun pointer => tree.trace? pointer.tokens

theorem child?_eq_stepOf? (token : String) (value : Json) :
    value.child? token = (value.stepOf? token).bind (step? · value) := by
  cases value with
  | object members =>
      simp only [child?, stepOf?]
      cases h : members.lookup (Pointer.decodeToken token) with
      | none => rfl
      | some child => simp [step?, h]
  | array items =>
      simp only [child?, stepOf?]
      cases Pointer.index? (Pointer.decodeToken token) with
      | none => rfl
      | some index =>
          by_cases h : index < items.length
          · simp [step?, h]
          · simp [h]
  | _ => rfl

theorem follow?_eq_trace? (value : Json) (tokens : List String) :
    value.follow? tokens = (value.trace? tokens).bind value.at? := by
  induction tokens generalizing value with
  | nil => rfl
  | cons token rest ih =>
      rw [follow?, trace?, child?_eq_stepOf?]
      cases value.stepOf? token with
      | none => rfl
      | some step =>
          simp only [Option.bind_some]
          cases hc : value.step? step with
          | none => rfl
          | some child =>
              simp only [Option.bind_some, ih child]
              cases child.trace? rest with
              | none => rfl
              | some path => simp [at?_cons, hc]

/-- Resolving a fragment is reading the node at the path that it takes. -/
theorem resolve?_eq_locate? (tree : Json) (fragment : String) :
    tree.resolve? fragment = (tree.locate? fragment).bind tree.at? := by
  rw [resolve?, locate?]
  cases Pointer.parse? fragment with
  | none => rfl
  | some pointer => exact follow?_eq_trace? tree pointer.tokens

/-- The path of a fragment leads to a node. -/
theorem exists_at?_of_trace? {value : Json} {tokens : List String} {path : Path}
    (h : value.trace? tokens = some path) : ∃ node, value.at? path = some node := by
  induction tokens generalizing value path with
  | nil =>
      rw [trace?, Option.some.injEq] at h
      exact ⟨value, by rw [← h]; rfl⟩
  | cons token rest ih =>
      simp only [trace?, Option.bind_eq_some_iff, Option.map_eq_some_iff] at h
      obtain ⟨step, _, child, hc, tail, ht, rfl⟩ := h
      obtain ⟨node, hn⟩ := ih ht
      exact ⟨node, by rw [at?_cons, hc]; exact hn⟩

theorem exists_locate?_of_resolve? {tree node : Json} {fragment : String}
    (h : tree.resolve? fragment = some node) :
    ∃ path, tree.locate? fragment = some path ∧ tree.at? path = some node := by
  rw [resolve?_eq_locate?, Option.bind_eq_some_iff] at h
  exact h

theorem exists_resolve?_of_locate? {tree : Json} {fragment : String} {path : Path}
    (h : tree.locate? fragment = some path) :
    ∃ node, tree.at? path = some node ∧ tree.resolve? fragment = some node := by
  obtain ⟨pointer, _, ht⟩ := Option.bind_eq_some_iff.mp h
  obtain ⟨node, hn⟩ := exists_at?_of_trace? ht
  exact ⟨node, hn, by rw [resolve?_eq_locate?, h]; exact hn⟩

/-- The path that a local reference takes in the tree that holds it. -/
def locateLocal? (tree : Json) (text : String) : Option Path :=
  let reference := Reference.parse text
  if reference.isLocal then tree.locate? (reference.fragment.getD "") else none

/-- Resolving a local reference is reading the node at the path that it takes. -/
theorem resolveLocal?_eq_locateLocal? (tree : Json) (text : String) :
    tree.resolveLocal? text = (tree.locateLocal? text).bind tree.at? := by
  simp only [resolveLocal?, locateLocal?]
  split
  · exact resolve?_eq_locate? _ _
  · rfl

theorem exists_at?_of_locateLocal? {tree : Json} {text : String} {path : Path}
    (h : tree.locateLocal? text = some path) : ∃ node, tree.at? path = some node := by
  simp only [locateLocal?] at h
  split at h
  · obtain ⟨node, hn, _⟩ := exists_resolve?_of_locate? h
    exact ⟨node, hn⟩
  · cases h

/-- A token takes the same step from any value that has that step. -/
theorem stepOf?_of_step? {value other child : Json} {token : String} {step : Step}
    (h : value.stepOf? token = some step) (hc : other.step? step = some child) :
    other.stepOf? token = some step := by
  -- the step tells which kind of value both are
  cases value with
  | object members =>
      simp only [stepOf?] at h
      split at h
      · cases h
        cases other with
        | object members' =>
            have hl : members'.lookup (Pointer.decodeToken token) = some child := hc
            simp [stepOf?, hl]
        | _ => cases hc
      · simp at h
  | array items =>
      obtain ⟨index, hi, h⟩ := Option.bind_eq_some_iff.mp h
      split at h
      · cases h
        cases other with
        | array items' =>
            obtain ⟨hlt, _⟩ := List.getElem?_eq_some_iff.mp hc
            rw [stepOf?, hi, Option.bind_some, if_pos hlt]
        | _ => cases hc
      · simp at h
  | _ => cases h

/-- Tokens take the same path in any tree that has that path. -/
theorem trace?_of_at? {value other node : Json} {tokens : List String} {path : Path}
    (h : value.trace? tokens = some path) (hn : other.at? path = some node) :
    other.trace? tokens = some path := by
  induction tokens generalizing value other path with
  | nil => exact h
  | cons token rest ih =>
      simp only [trace?, Option.bind_eq_some_iff, Option.map_eq_some_iff] at h
      obtain ⟨step, hs, child, _, tail, ht, rfl⟩ := h
      obtain ⟨child', hc', hn'⟩ := Option.bind_eq_some_iff.mp hn
      rw [trace?, stepOf?_of_step? hs hc', Option.bind_some, hc', Option.bind_some, ih ht hn']
      rfl

theorem locate?_of_at? {tree other node : Json} {fragment : String} {path : Path}
    (h : tree.locate? fragment = some path) (hn : other.at? path = some node) :
    other.locate? fragment = some path := by
  obtain ⟨pointer, hp, ht⟩ := Option.bind_eq_some_iff.mp h
  rw [locate?, hp]
  exact trace?_of_at? ht hn

/-- A reference takes the same path in any tree that has that path. -/
theorem locateLocal?_of_at? {tree other node : Json} {text : String} {path : Path}
    (hl : tree.locateLocal? text = some path) (ha : other.at? path = some node) :
    other.locateLocal? text = some path := by
  simp only [locateLocal?] at hl ⊢
  split at hl
  · next hlocal =>
      rw [if_pos hlocal]
      exact locate?_of_at? hl ha
  · cases hl

/-- A reference that takes a path in a tree resolves in any tree that has the path. -/
theorem isSome_resolveLocal?_of_at? {tree other node : Json} {text : String} {path : Path}
    (hl : tree.locateLocal? text = some path) (ha : other.at? path = some node) :
    (other.resolveLocal? text).isSome = true := by
  rw [resolveLocal?_eq_locateLocal?, locateLocal?_of_at? hl ha, Option.bind_some, ha]
  rfl

/-! ## Objects without repeated names -/

mutual

/-- Whether no object of a tree repeats a name. -/
def proper : Json → Bool
  | object members => decide (members.map Prod.fst).Nodup && properMembers members
  | array items => properItems items
  | _ => true

/-- Whether every item is proper. -/
def properItems : List Json → Bool
  | [] => true
  | item :: rest => item.proper && properItems rest

/-- Whether the value of every member is proper. -/
def properMembers : List (String × Json) → Bool
  | [] => true
  | (_, value) :: rest => value.proper && properMembers rest

end

theorem properItems_iff {items : List Json} :
    properItems items = true ↔ ∀ item ∈ items, item.proper = true := by
  induction items with
  | nil => simp [properItems]
  | cons item rest ih => simp [properItems, ih]

theorem properMembers_iff {members : Members} :
    properMembers members = true ↔ ∀ entry ∈ members, entry.2.proper = true := by
  induction members with
  | nil => simp [properMembers]
  | cons entry rest ih => simp [properMembers, ih]

theorem proper_object_iff {members : Members} :
    (object members).proper = true ↔
      members.names.Nodup ∧ ∀ entry ∈ members, entry.2.proper = true := by
  simp only [proper, Bool.and_eq_true, decide_eq_true_eq, properMembers_iff, Members.names]

end Json

/-! ## Looking up members

Members and the tables of a bundling run are lists of pairs that are read by `List.lookup`. -/

section Table

variable {α β : Type} [BEq α] [LawfulBEq α] {table : List (α × β)} {key : α} {value : β}

theorem mem_of_lookup (h : table.lookup key = some value) : (key, value) ∈ table := by
  obtain ⟨before, after, rfl, _⟩ := List.lookup_eq_some_iff.mp h
  exact List.mem_append_right _ List.mem_cons_self

theorem lookup_eq_none_iff_notMem : table.lookup key = none ↔ key ∉ table.map Prod.fst := by
  rw [List.lookup_eq_none_iff]
  constructor
  · intro h hm
    obtain ⟨entry, he, rfl⟩ := List.mem_map.mp hm
    simpa using h entry he
  · intro h entry he
    rw [bne_iff_ne]
    rintro rfl
    exact h (List.mem_map_of_mem he)

theorem exists_lookup_of_mem (h : (key, value) ∈ table) : ∃ found, table.lookup key = some found := by
  cases hl : table.lookup key with
  | some found => exact ⟨found, rfl⟩
  | none => exact absurd (List.mem_map_of_mem h) (lookup_eq_none_iff_notMem.mp hl)

theorem lookup_of_mem (hn : (table.map Prod.fst).Nodup) (h : (key, value) ∈ table) :
    table.lookup key = some value := by
  induction table with
  | nil => simp at h
  | cons entry rest ih =>
      rw [List.map_cons, List.nodup_cons] at hn
      rcases List.mem_cons.mp h with rfl | hrest
      · exact List.lookup_cons_self
      · -- an earlier entry with this key would repeat it
        have hne : (key == entry.1) = false := by
          rw [beq_eq_false_iff_ne]
          rintro rfl
          exact hn.1 (List.mem_map.mpr ⟨_, hrest, rfl⟩)
        rw [List.lookup_cons, hne]
        exact ih hn.2 hrest

/-- Setting a key, in its place or else at the end, leaves all other keys. -/
theorem lookup_of_sets [DecidableEq α] (set : List (α × β) → List (α × β))
    (hnil : set [] = [(key, value)])
    (hcons : ∀ own old rest, set ((own, old) :: rest)
      = if own = key then (own, value) :: rest else (own, old) :: set rest) (other : α) :
    (set table).lookup other = if other = key then some value else table.lookup other := by
  induction table with
  | nil =>
      rw [hnil, List.lookup_cons]
      by_cases h : other = key
      · simp [h]
      · simp [beq_eq_false_iff_ne.mpr h, h]
  | cons entry rest ih =>
      obtain ⟨own, old⟩ := entry
      rw [hcons]
      by_cases hk : own = key
      · subst hk
        rw [if_pos rfl, List.lookup_cons, List.lookup_cons]
        by_cases h : other = own
        · simp [h]
        · simp [beq_eq_false_iff_ne.mpr h, h]
      · rw [if_neg hk, List.lookup_cons, List.lookup_cons, ih]
        by_cases h : other = own
        · subst h
          simp [hk]
        · simp only [beq_eq_false_iff_ne.mpr h]

omit [BEq α] [LawfulBEq α] in
/-- Where no value comes twice, it has one key. -/
theorem key_eq_of_mem {a b : α} (hn : (table.map Prod.snd).Nodup) (ha : (a, value) ∈ table)
    (hb : (b, value) ∈ table) : a = b := by
  induction table with
  | nil => simp at ha
  | cons entry rest ih =>
      rw [List.map_cons, List.nodup_cons] at hn
      have hrest : ∀ {key}, (key, value) ∈ rest → value ∈ rest.map Prod.snd :=
        fun hm => List.mem_map.mpr ⟨_, hm, rfl⟩
      rcases List.mem_cons.mp ha with rfl | ha'
      · rcases List.mem_cons.mp hb with heq | hb'
        · injection heq with heq
          exact heq.symm
        · exact absurd (hrest hb') hn.1
      · rcases List.mem_cons.mp hb with rfl | hb'
        · exact absurd (hrest ha') hn.1
        · exact ih hn.2 ha' hb'

end Table

/-- A list has fewer entries of a narrower kind, if one of its entries is of the wider kind only. -/
theorem countP_lt_countP {α : Type} {p q : α → Bool} {list : List α} {entry : α}
    (h : ∀ a, q a = true → p a = true) (hm : entry ∈ list) (hp : p entry = true)
    (hq : q entry = false) : list.countP q < list.countP p := by
  -- the narrower kind is counted among the wider one, which has `entry` besides
  have hsub : list.filter q = (list.filter p).filter q := by
    rw [List.filter_filter]
    apply List.filter_congr
    intro a _
    cases ha : q a with
    | true => rw [h a ha]; rfl
    | false => rfl
  rw [List.countP_eq_length_filter, List.countP_eq_length_filter, hsub,
    ← List.countP_eq_length_filter]
  apply Nat.lt_of_le_of_ne List.countP_le_length
  intro heq
  have hall := List.countP_eq_length.mp heq entry (List.mem_filter.mpr ⟨hm, hp⟩)
  rw [hq] at hall
  simp at hall

/-- A text that is met for the first time leaves fewer that have not been met. -/
theorem countP_unseen_lt {texts seen : List String} {text : String} (hm : text ∈ texts)
    (hs : text ∉ seen) :
    texts.countP (!(text :: seen).contains ·) < texts.countP (!seen.contains ·) := by
  refine countP_lt_countP (fun other h => ?_) hm ?_ ?_
  · rw [List.contains_cons, Bool.not_or, Bool.and_eq_true] at h
    exact h.2
  · simpa using hs
  · simp

namespace Json

/-- Every node of a proper tree is proper. -/
theorem proper_of_at? {tree node : Json} {path : Path} (ht : tree.proper = true)
    (h : tree.at? path = some node) : node.proper = true := by
  induction path generalizing tree with
  | nil =>
      injection h with h
      rwa [← h]
  | cons step rest ih =>
      obtain ⟨child, hc, hn⟩ := Option.bind_eq_some_iff.mp h
      -- what is one step below a proper value is proper
      refine ih ?_ hn
      cases tree with
      | object members =>
          cases step with
          | member name => exact (proper_object_iff.mp ht).2 _ (mem_of_lookup hc)
          | item index => cases hc
      | array items =>
          cases step with
          | member name => cases hc
          | item index => exact properItems_iff.mp ht _ (List.mem_of_getElem? hc)
      | _ => cases step <;> cases hc

/-! ## All nodes of a tree -/

mutual

/-- The nodes of a value that stands at a path, each with its own path. -/
def sites (path : Path) : Json → List (Path × Json)
  | object members => (path, object members) :: memberSites path members
  | array items => (path, array items) :: itemSites path 0 items
  | value => [(path, value)]

/-- The nodes of items from an index on. -/
def itemSites (path : Path) (index : Nat) : List Json → List (Path × Json)
  | [] => []
  | item :: rest => item.sites (path ++ [.item index]) ++ itemSites path (index + 1) rest

/-- The nodes of the values of members. -/
def memberSites (path : Path) : List (String × Json) → List (Path × Json)
  | [] => []
  | (name, value) :: rest => value.sites (path ++ [.member name]) ++ memberSites path rest

end

theorem self_mem_sites (path : Path) (value : Json) : (path, value) ∈ value.sites path := by
  cases value with
  | object members =>
      unfold sites
      exact List.mem_cons_self
  | array items =>
      unfold sites
      exact List.mem_cons_self
  | _ =>
      rw [sites] <;> simp

theorem itemSites_subset {items : List Json} {item : Json} (path : Path) (start : Nat) {index : Nat}
    (h : items[index]? = some item) :
    item.sites (path ++ [.item (start + index)]) ⊆ itemSites path start items := by
  -- on the items, while the index of the first one moves on
  induction items generalizing start index with
  | nil => simp at h
  | cons first rest ih =>
      unfold itemSites
      cases index with
      | zero =>
          injection h with h
          rw [h]
          exact List.subset_append_left _ _
      | succ index =>
          have hrest := ih (start + 1) h
          rw [Nat.add_right_comm] at hrest
          exact List.Subset.trans hrest (List.subset_append_right _ _)

theorem memberSites_subset {members : Members} {value : Json} {path : Path} {name : String}
    (h : (name, value) ∈ members) :
    value.sites (path ++ [.member name]) ⊆ memberSites path members := by
  induction members with
  | nil => simp at h
  | cons entry rest ih =>
      unfold memberSites
      rcases List.mem_cons.mp h with rfl | h
      · exact List.subset_append_left _ _
      · exact List.Subset.trans (ih h) (List.subset_append_right _ _)

theorem sites_subset_of_step? {tree child : Json} {path : Path} {step : Step}
    (h : tree.step? step = some child) : child.sites (path ++ [step]) ⊆ tree.sites path := by
  cases tree with
  | object members =>
      cases step with
      | member name =>
          rw [sites]
          exact List.Subset.trans (memberSites_subset (mem_of_lookup h)) (List.subset_cons_self _ _)
      | item index => cases h
  | array items =>
      cases step with
      | member name => cases h
      | item index =>
          have hitem := itemSites_subset path 0 h
          rw [Nat.zero_add] at hitem
          rw [sites]
          exact List.Subset.trans hitem (List.subset_cons_self _ _)
  | _ => cases step <;> cases h

/-- The node at a path is listed with it. -/
theorem mem_sites_of_at? {tree node : Json} {rest : Path} (path : Path)
    (h : tree.at? rest = some node) : (path ++ rest, node) ∈ tree.sites path := by
  induction rest generalizing tree path with
  | nil =>
      injection h with h
      rw [List.append_nil, h]
      exact self_mem_sites path node
  | cons step rest ih =>
      obtain ⟨child, hc, hn⟩ := Option.bind_eq_some_iff.mp h
      have hmem := ih (path ++ [step]) hn
      rw [List.append_assoc, List.singleton_append] at hmem
      exact sites_subset_of_step? hc hmem

/-! ## The references of a tree -/

theorem references_subset_of_mem_items {items : List Json} {item : Json} (h : item ∈ items) :
    item.references ⊆ itemReferences items := by
  induction items with
  | nil => simp at h
  | cons first rest ih =>
      unfold itemReferences
      rcases List.mem_cons.mp h with rfl | h
      · exact List.subset_append_left _ _
      · exact List.Subset.trans (ih h) (List.subset_append_right _ _)

theorem references_subset_of_mem_members {members : Members} {name : String} {value : Json}
    (h : (name, value) ∈ members) : value.references ⊆ memberReferences members := by
  induction members with
  | nil => simp at h
  | cons first rest ih =>
      unfold memberReferences
      rcases List.mem_cons.mp h with rfl | h
      · exact List.subset_append_left _ _
      · exact List.Subset.trans (ih h) (List.subset_append_right _ _)

theorem references_subset_of_mem_object {members : Members} {name : String} {value : Json}
    (h : (name, value) ∈ members) : value.references ⊆ (object members).references := by
  rw [references]
  exact List.Subset.trans (references_subset_of_mem_members h) (List.subset_append_right _ _)

theorem references_subset_of_step? {tree child : Json} {step : Step}
    (h : tree.step? step = some child) : child.references ⊆ tree.references := by
  cases tree with
  | object members =>
      cases step with
      | member name => exact references_subset_of_mem_object (mem_of_lookup h)
      | item index => cases h
  | array items =>
      cases step with
      | member name => cases h
      | item index => exact references_subset_of_mem_items (List.mem_of_getElem? h)
  | _ => cases step <;> cases h

/-- The references of a node are references of the tree. -/
theorem references_subset_of_at? {tree node : Json} {path : Path}
    (h : tree.at? path = some node) : node.references ⊆ tree.references := by
  induction path generalizing tree with
  | nil =>
      injection h with h
      rw [h]
      exact List.Subset.refl _
  | cons step rest ih =>
      obtain ⟨child, hc, hn⟩ := Option.bind_eq_some_iff.mp h
      exact List.Subset.trans (ih hn) (references_subset_of_step? hc)

theorem references_subset_of_resolve? {tree node : Json} {fragment : String}
    (h : tree.resolve? fragment = some node) : node.references ⊆ tree.references := by
  obtain ⟨path, _, hp⟩ := exists_locate?_of_resolve? h
  exact references_subset_of_at? hp

/-- Only an object is a Reference Object. -/
theorem exists_members_of_reference? {value : Json} {text : String}
    (h : value.reference? = some text) :
    ∃ members, value = object members ∧ members.lookup "$ref" = some (string text) := by
  cases value with
  | object members =>
      refine ⟨members, rfl, ?_⟩
      obtain ⟨inner, hi, ht⟩ := Option.bind_eq_some_iff.mp h
      cases inner with
      | string found =>
          injection ht with ht
          rw [← ht]
          exact hi
      | _ => cases ht
  | _ => cases h

theorem reference?_of_isScalar {value : Json} (h : value.isScalar = true) :
    value.reference? = none := by
  cases value with
  | object members => cases h
  | _ => rfl

theorem mem_references_of_reference? {value : Json} {text : String}
    (h : value.reference? = some text) : text ∈ value.references := by
  obtain ⟨members, rfl, _⟩ := exists_members_of_reference? h
  rw [references, h]
  exact List.mem_append_left _ (List.mem_singleton.mpr rfl)

end Json

end OpenApi
