import OpenApi.Proofs.Json.Path
import OpenApi.Schema.Basic

/-!
# Trees with parts left out

`Json.blank` replaces what stands at certain paths of a tree by one and the same value, so two trees
that differ only there have the same blank. The value is an object with the flag `writeOnly`; it is
put in the place of objects that have the flag themselves (`Json.Veiled`), so that not even the kind
of the value tells that something is left out.

Off those paths a tree and its blank have the same nodes, and a text that designates such a node in
one designates it in the other: `locateLocal?_blank`.
-/

namespace OpenApi

namespace Json

/-- Whether a value is an object with the flag `writeOnly`. -/
def isWriteOnly : Json → Bool
  | object members => Schema.flag "writeOnly" members
  | _ => false

/-- What stands for everything that is left out. -/
def veil : Json := object [("writeOnly", .bool true)]

mutual

/-- The value at a path with what stands at hidden paths left out. -/
def blank (hidden : List Path) (path : Path) : Json → Json
  | object members =>
    if path ∈ hidden then veil else object (blankMembers hidden path members)
  | array items => if path ∈ hidden then veil else array (blankItems hidden path 0 items)
  | value => if path ∈ hidden then veil else value

/-- The items of an array from an index on. -/
def blankItems (hidden : List Path) (path : Path) (index : Nat) : List Json → List Json
  | [] => []
  | item :: rest =>
    item.blank hidden (path ++ [.item index]) :: blankItems hidden path (index + 1) rest

/-- The members of an object. -/
def blankMembers (hidden : List Path) (path : Path) : List (String × Json) → List (String × Json)
  | [] => []
  | (name, value) :: rest =>
    (name, value.blank hidden (path ++ [.member name])) :: blankMembers hidden path rest

end

/-- What stands at hidden paths in a value at a path is write-only. -/
def Veiled (hidden : List Path) (path : Path) (value : Json) : Prop :=
  ∀ site ∈ value.sites path, site.1 ∈ hidden → site.2.isWriteOnly = true

/-- A path does not lead to or below a hidden one. -/
def Clear (hidden : List Path) (path : Path) : Prop := ∀ above ∈ hidden, ¬above <+: path

variable {hidden : List Path} {path : Path}

theorem Clear.notMem (h : Clear hidden path) : path ∉ hidden :=
  fun hm => h path hm (List.prefix_refl path)

theorem Clear.of_prefix {above : Path} (h : Clear hidden path) (hp : above <+: path) :
    Clear hidden above :=
  fun other hm hother => h other hm (hother.trans hp)

/-- One step from a path that is clear leads to a hidden path, or is clear again. -/
theorem Clear.concat (h : Clear hidden path) {step : Step} (hs : path ++ [step] ∉ hidden) :
    Clear hidden (path ++ [step]) := by
  intro above hm hp
  rcases List.prefix_concat_iff.mp hp with rfl | hp
  · exact hs hm
  · exact h above hm hp

/-! ## The blank of a value -/

theorem blank_of_mem (h : path ∈ hidden) (value : Json) : value.blank hidden path = veil := by
  cases value with
  | object members => rw [blank, if_pos h]
  | array items => rw [blank, if_pos h]
  | _ => rw [blank] <;> simp [h]

theorem blank_object (h : path ∉ hidden) (members : Members) :
    (object members).blank hidden path = object (blankMembers hidden path members) := by
  rw [blank, if_neg h]

theorem blank_array (h : path ∉ hidden) (items : List Json) :
    (array items).blank hidden path = array (blankItems hidden path 0 items) := by
  rw [blank, if_neg h]

theorem blank_scalar (h : path ∉ hidden) {value : Json} (hv : value.isScalar = true) :
    value.blank hidden path = value := by
  cases value with
  | object members => cases hv
  | array items => cases hv
  | _ => rw [blank] <;> simp [h]

theorem lookup_blankMembers (hidden : List Path) (path : Path) (members : Members) (name : String) :
    (blankMembers hidden path members).lookup name
      = (members.lookup name).map (blank hidden (path ++ [.member name])) := by
  induction members with
  | nil => rfl
  | cons entry rest ih =>
      obtain ⟨key, value⟩ := entry
      rw [blankMembers, List.lookup_cons, List.lookup_cons]
      by_cases hk : name = key
      · subst hk
        rw [beq_self_eq_true]
        rfl
      · rw [beq_eq_false_iff_ne.mpr hk]
        exact ih

theorem blankMembers_eq_map (hidden : List Path) (path : Path) (members : Members) :
    blankMembers hidden path members
      = members.map fun (name, value) => (name, value.blank hidden (path ++ [.member name])) := by
  induction members with
  | nil => rfl
  | cons entry rest ih => rw [blankMembers, ih, List.map_cons]

theorem asObject?_blank (h : path ∉ hidden) (value : Json) :
    (value.blank hidden path).asObject? = value.asObject?.map (blankMembers hidden path) := by
  cases value with
  | object members =>
      rw [blank_object h]
      rfl
  | array items =>
      rw [blank_array h]
      rfl
  | _ =>
      rw [blank_scalar h rfl]
      rfl

theorem getElem?_blankItems (hidden : List Path) (path : Path) (start : Nat) (items : List Json)
    (index : Nat) : (blankItems hidden path start items)[index]?
      = (items[index]?).map (blank hidden (path ++ [.item (start + index)])) := by
  -- on the items, while the index of the first one moves on
  induction items generalizing start index with
  | nil => rfl
  | cons item rest ih =>
      rw [blankItems]
      cases index with
      | zero => rfl
      | succ index =>
          rw [List.getElem?_cons_succ, List.getElem?_cons_succ, ih (start + 1) index,
            Nat.add_right_comm, Nat.add_assoc]

theorem step?_blank (h : path ∉ hidden) (value : Json) (step : Step) :
    (value.blank hidden path).step? step
      = (value.step? step).map (blank hidden (path ++ [step])) := by
  cases value with
  | object members =>
      rw [blank_object h]
      cases step with
      | member name => exact lookup_blankMembers hidden path members name
      | item index => rfl
  | array items =>
      rw [blank_array h]
      cases step with
      | member name => rfl
      | item index =>
          have hitems := getElem?_blankItems hidden path 0 items index
          rw [Nat.zero_add] at hitems
          exact hitems
  | _ =>
      rw [blank_scalar h rfl]
      cases step <;> rfl

/-- Off the hidden paths a blank has the same nodes. -/
theorem at?_blank {rest : Path} (h : Clear hidden (path ++ rest)) (value : Json) :
    (value.blank hidden path).at? rest = (value.at? rest).map (blank hidden (path ++ rest)) := by
  induction rest generalizing path value with
  | nil =>
      rw [List.append_nil]
      rfl
  | cons step rest ih =>
      have hpath : path ∉ hidden := (h.of_prefix (List.prefix_append path _)).notMem
      have hrest : path ++ step :: rest = path ++ [step] ++ rest := by
        rw [List.append_assoc, List.singleton_append]
      rw [hrest] at h ⊢
      rw [at?_cons, at?_cons, step?_blank hpath]
      cases value.step? step with
      | none => rfl
      | some child => exact ih h child

theorem at?_blank_root (h : Clear hidden path) (tree : Json) :
    (tree.blank hidden []).at? path = (tree.at? path).map (blank hidden path) :=
  @at?_blank hidden [] path h tree

theorem not_prefix_concat (h : ∀ below ∈ hidden, ¬path <+: below) (step : Step) :
    ∀ below ∈ hidden, ¬path ++ [step] <+: below :=
  fun below hm hp => h below hm ((List.prefix_append path [step]).trans hp)

mutual

/-- Where no hidden path leads, nothing is left out. -/
theorem blank_eq_self (path : Path) (value : Json) (h : ∀ below ∈ hidden, ¬path <+: below) :
    value.blank hidden path = value := by
  have hpath : path ∉ hidden := fun hm => h path hm (List.prefix_refl path)
  cases value with
  | object members => rw [blank_object hpath, blankMembers_eq_self path members h]
  | array items => rw [blank_array hpath, blankItems_eq_self path 0 items h]
  | _ => exact blank_scalar hpath rfl

theorem blankItems_eq_self (path : Path) (index : Nat) (items : List Json)
    (h : ∀ below ∈ hidden, ¬path <+: below) : blankItems hidden path index items = items := by
  cases items with
  | nil => rfl
  | cons item rest =>
      rw [blankItems, blank_eq_self _ item (not_prefix_concat h _),
        blankItems_eq_self path (index + 1) rest h]

theorem blankMembers_eq_self (path : Path) (members : List (String × Json))
    (h : ∀ below ∈ hidden, ¬path <+: below) : blankMembers hidden path members = members := by
  cases members with
  | nil => rfl
  | cons entry rest =>
      obtain ⟨name, value⟩ := entry
      rw [blankMembers, blank_eq_self _ value (not_prefix_concat h _),
        blankMembers_eq_self path rest h]

end

/-! ## What a veiled value shows -/

theorem isWriteOnly_veil : veil.isWriteOnly = true := rfl

theorem Veiled.isWriteOnly {value : Json} (h : Veiled hidden path value) (hm : path ∈ hidden) :
    value.isWriteOnly = true :=
  h (path, value) (self_mem_sites path value) hm

theorem exists_members_of_isWriteOnly {value : Json} (h : value.isWriteOnly = true) :
    ∃ members, value = object members ∧ Schema.flag "writeOnly" members = true := by
  cases value with
  | object members => exact ⟨members, rfl, h⟩
  | _ => cases h

theorem Veiled.members {members : Members} (h : Veiled hidden path (object members)) :
    ∀ site ∈ memberSites path members, site.1 ∈ hidden → site.2.isWriteOnly = true := by
  intro site hs
  refine h site ?_
  rw [sites]
  exact List.mem_cons_of_mem _ hs

theorem Veiled.items {items : List Json} (h : Veiled hidden path (array items)) :
    ∀ site ∈ itemSites path 0 items, site.1 ∈ hidden → site.2.isWriteOnly = true := by
  intro site hs
  refine h site ?_
  rw [sites]
  exact List.mem_cons_of_mem _ hs

theorem Veiled.of_mem {members : Members} (h : Veiled hidden path (object members)) {name : String}
    {value : Json} (hm : (name, value) ∈ members) : Veiled hidden (path ++ [.member name]) value :=
  fun site hs => h.members site (memberSites_subset hm hs)

theorem Veiled.step {value child : Json} {step : Step} (h : Veiled hidden path value)
    (hc : value.step? step = some child) : Veiled hidden (path ++ [step]) child :=
  fun site hs => h site (sites_subset_of_step? hc hs)

theorem Veiled.at {value node : Json} {rest : Path} (h : Veiled hidden path value)
    (hn : value.at? rest = some node) : Veiled hidden (path ++ rest) node := by
  induction rest generalizing path value with
  | nil =>
      cases hn
      rw [List.append_nil]
      exact h
  | cons step rest ih =>
      obtain ⟨child, hc, hn⟩ := Option.bind_eq_some_iff.mp hn
      have hrest := ih (h.step hc) hn
      rw [List.append_assoc, List.singleton_append] at hrest
      exact hrest

/-- A test that scalars decide, and that no object and no array passes, has the same answer on a
blank. -/
theorem Veiled.of_scalar {α : Type} {value : Json} {read : Json → Option α}
    (h : Veiled hidden path value) (hobject : ∀ members, read (object members) = none)
    (harray : ∀ items, read (array items) = none) : read (value.blank hidden path) = read value := by
  by_cases hm : path ∈ hidden
  · obtain ⟨members, rfl, _⟩ := exists_members_of_isWriteOnly (h.isWriteOnly hm)
    rw [blank_of_mem hm, hobject]
    exact hobject _
  · cases value with
    | object members => rw [blank_object hm, hobject, hobject]
    | array items => rw [blank_array hm, harray, harray]
    | _ => rw [blank_scalar hm rfl]

theorem Veiled.asString?_blank {value : Json} (h : Veiled hidden path value) :
    (value.blank hidden path).asString? = value.asString? :=
  h.of_scalar (fun _ => rfl) fun _ => rfl

theorem Veiled.asBool?_blank {value : Json} (h : Veiled hidden path value) :
    (value.blank hidden path).asBool? = value.asBool? :=
  h.of_scalar (fun _ => rfl) fun _ => rfl

/-- A Reference Object is one in a blank. -/
theorem Veiled.reference?_blank {value : Json} (h : Veiled hidden path value) (hp : path ∉ hidden) :
    (value.blank hidden path).reference? = value.reference? := by
  rw [reference?, reference?, member?_eq_step?, member?_eq_step?, step?_blank hp]
  cases hc : value.step? (.member "$ref") with
  | none => rfl
  | some child => exact (h.step hc).asString?_blank

/-! ## The members at a path -/

/-- The members of the object at a path; none where there is no object. -/
def membersAt (tree : Json) (path : Path) : Members := ((tree.at? path).bind asObject?).getD []

/-- Off the hidden paths a blank has the same members, each left to its own blank. -/
theorem membersAt_blank (h : Clear hidden path) (tree : Json) :
    (tree.blank hidden []).membersAt path = (tree.membersAt path).map fun (name, value) =>
      (name, value.blank hidden (path ++ [.member name])) := by
  rw [membersAt, membersAt, at?_blank_root h]
  cases tree.at? path with
  | none => rfl
  | some found =>
      rw [Option.map_some, Option.bind_some, Option.bind_some, asObject?_blank h.notMem]
      cases found.asObject? with
      | none => rfl
      | some members => exact blankMembers_eq_map hidden path members

theorem Veiled.of_mem_membersAt {tree value : Json} (h : Veiled hidden [] tree) {name : String}
    (hm : (name, value) ∈ tree.membersAt path) : Veiled hidden (path ++ [.member name]) value := by
  rw [membersAt] at hm
  cases ha : tree.at? path with
  | none =>
      rw [ha] at hm
      cases hm
  | some found =>
      rw [ha] at hm
      have hfound : Veiled hidden path found := h.at ha
      cases found with
      | object members => exact hfound.of_mem hm
      | _ => cases hm

/-! ## Texts designate the same nodes -/

theorem lookup_of_flag {name : String} {members : Members} (h : Schema.flag name members = true) :
    members.lookup name = some (.bool true) := by
  unfold Schema.flag at h
  cases hl : members.lookup name with
  | none =>
      rw [hl] at h
      cases h
  | some value =>
      rw [hl] at h
      cases value with
      | bool own =>
          have hown : own = true := h
          rw [hown]
      | _ => cases h

/-- Where a blank has a node, the tree has one as well. -/
theorem Veiled.exists_at?_of_blank {value node : Json} {rest : Path} (h : Veiled hidden path value)
    (hn : (value.blank hidden path).at? rest = some node) : ∃ node', value.at? rest = some node' := by
  induction rest generalizing path value with
  | nil => exact ⟨value, rfl⟩
  | cons step rest ih =>
      obtain ⟨child, hc, hn⟩ := Option.bind_eq_some_iff.mp hn
      by_cases hm : path ∈ hidden
      · -- a veil has only the flag, and so has what it stands for
        obtain ⟨members, rfl, hflag⟩ := exists_members_of_isWriteOnly (h.isWriteOnly hm)
        rw [blank_of_mem hm] at hc
        cases step with
        | item index => cases hc
        | member name =>
            have hentry : (name, child) ∈ [("writeOnly", bool true)] := mem_of_lookup hc
            cases List.mem_singleton.mp hentry
            cases rest with
            | nil =>
                have hstep : (object members).step? (.member "writeOnly") = some (bool true) :=
                  lookup_of_flag hflag
                exact ⟨bool true, by rw [at?_cons, hstep]; rfl⟩
            | cons next rest => cases next <;> cases hn
      · rw [step?_blank hm] at hc
        obtain ⟨found, hfound, rfl⟩ := Option.map_eq_some_iff.mp hc
        obtain ⟨node', hnode⟩ := ih (h.step hfound) hn
        exact ⟨node', by rw [at?_cons, hfound]; exact hnode⟩

/-- A text that does not designate anything hidden takes the same path in a tree and in its blank. -/
theorem locateLocal?_blank {tree : Json} (h : Veiled hidden [] tree) {text : String}
    (hclear : ∀ found, tree.locateLocal? text = some found → Clear hidden found) :
    (tree.blank hidden []).locateLocal? text = tree.locateLocal? text := by
  cases hl : tree.locateLocal? text with
  | some found =>
      obtain ⟨node, ha⟩ := exists_at?_of_locateLocal? hl
      have hblank := at?_blank_root (hclear found hl) tree
      rw [ha, Option.map_some] at hblank
      exact locateLocal?_of_at? hl hblank
  | none =>
      cases hb : (tree.blank hidden []).locateLocal? text with
      | none => rfl
      | some found =>
          obtain ⟨node, ha⟩ := exists_at?_of_locateLocal? hb
          obtain ⟨node', ha'⟩ := h.exists_at?_of_blank ha
          cases hl.symm.trans (locateLocal?_of_at? hb ha')

/-- What a text designates in the blank is the blank of what it designates. -/
theorem resolveLocal?_blank {tree : Json} (h : Veiled hidden [] tree) {text : String}
    (hclear : ∀ found, tree.locateLocal? text = some found → Clear hidden found) :
    (tree.blank hidden []).resolveLocal? text = (tree.locateLocal? text).bind fun found =>
      (tree.at? found).map (blank hidden found) := by
  rw [resolveLocal?_eq_locateLocal?, locateLocal?_blank h hclear]
  cases hl : tree.locateLocal? text with
  | none => rfl
  | some found => exact at?_blank_root (hclear found hl) tree

end Json

end OpenApi
