import Mathlib.Logic.Relation
import OpenApi.Proofs.Bundle.Success

/-!
# Where a walk stands

A walk carries the position of what it walks along: from an object to its members, from an array to its
items, and from the place of a reference to what is taken in there. The pointer that it carries beside
it tells the position as well, by replaying the keywords that its tokens name. The two agree in every
walk that bundling makes, also in those that fail (`placed_of_entered`), so carrying the position along
is of no account: a walk that replays the pointer wherever it decides about a reference does the same
(`walk_eq_replayed`).

Replaying does not know which tokens were indices. That is harmless but in one place: below a map of
schemas every token leads to a schema, whereas an item of an array that stands there is none. Nor does
it know how a name was written. That matters only right below the root, where the names `components` and
`definitions` count, so it is enough that no key holds a `%`; the names that schemas are hoisted under
may.
-/

namespace OpenApi

/-! ## Replaying a pointer -/

namespace Pointer

/-- The pointer that replaying rebuilds: each token is read as a name and written again. -/
def rewritten (p : Pointer) : Pointer :=
  ⟨p.tokens.map fun token => encodeToken (decodeToken token)⟩

theorem encodeToken_toString (index : Nat) : encodeToken (toString index) = toString index := by
  have hself : ∀ text : List Char, (∀ c ∈ text, c.isDigit = true) → text.flatMap escape = text := by
    intro text h
    induction text with
    | nil => rfl
    | cons c rest ih =>
        rw [List.forall_mem_cons] at h
        have hc : escape c = [c] := by
          rw [escape, if_neg, if_neg] <;>
          · rintro rfl
            exact absurd h.1 (by decide)
        rw [List.flatMap_cons, hc, ih h.2, List.singleton_append]
  apply String.toList_injective
  rw [toList_encodeToken, hself _ fun _ => isDigit_of_mem_toString]

theorem rewritten_token {step : Step} (h : step.Plain) :
    encodeToken (decodeToken step.token) = step.token := by
  cases step with
  | member name => rw [Step.token, decodeToken_encodeToken h]
  | item index => rw [Step.token, decodeToken_toString, encodeToken_toString]

end Pointer

/-- If the path is a single step, its name holds no `%`. -/
def Path.HeadPlain (path : Path) : Prop := ∀ step, path = [step] → step.Plain

theorem Path.headPlain_concat {path : Path} {step : Step} (h : path ≠ [] ∨ step.Plain) :
    Path.HeadPlain (path ++ [step]) := by
  intro single heq
  cases path with
  | nil =>
      cases heq
      exact h.resolve_left (by simp)
  | cons first rest => simp at heq

namespace Position

theorem follow_concat (position : Position) (parent : Pointer) (tokens : List String)
    (token : String) :
    position.follow parent (tokens ++ [token]) = (position.follow parent tokens).child
      ⟨parent.tokens ++ (Pointer.mk tokens).rewritten.tokens⟩ (Pointer.decodeToken token) := by
  induction tokens generalizing position parent with
  | nil =>
      rw [List.nil_append, follow, follow, follow]
      simp [Pointer.rewritten]
  | cons first rest ih =>
      rw [List.cons_append, follow, follow, ih]
      simp [Pointer.rewritten, Pointer.member]

/-- The last token of a pointer is followed below the position of the others. -/
theorem ofPointer_concat (path : Path) (step : Step) :
    ofPointer (.ofPath (path ++ [step])) = (ofPointer (.ofPath path)).child
      (Pointer.ofPath path).rewritten (Pointer.decodeToken step.token) := by
  rw [ofPointer, Pointer.tokens_ofPath, List.map_append, List.map_singleton, follow_concat, ofPointer,
    Pointer.tokens_ofPath, Pointer.ofPath_eq]
  rfl

/-- Only the root and its components are told from other pointers. -/
theorem child_congr {pointer pointer' : Pointer} (hroot : pointer = .root ↔ pointer' = .root)
    (hcomponents : pointer = Pointer.root.member "components" ↔
      pointer' = Pointer.root.member "components") (position : Position) (name : String) :
    position.child pointer name = position.child pointer' name := by
  cases position <;> simp only [child, hroot, hcomponents]

theorem child_rewritten {path : Path} (h : path.HeadPlain) (position : Position) (name : String) :
    position.child (Pointer.ofPath path).rewritten name = position.child (.ofPath path) name := by
  match path with
  | [] => rfl
  | [step] =>
    have hsame : (Pointer.ofPath [step]).rewritten = Pointer.ofPath [step] := by
      rw [Pointer.ofPath_eq, Pointer.rewritten]
      exact congrArg Pointer.mk (congrArg (fun token => [token]) (Pointer.rewritten_token (h step rfl)))
    rw [hsame]
  | first :: second :: rest =>
    -- neither pointer is short enough to be one that counts
    rw [Pointer.ofPath_eq, Pointer.rewritten]
    apply child_congr <;> simp [Pointer.root, Pointer.member]

/-- Replaying agrees with the position that is carried to a member. -/
theorem ofPointer_member {path : Path} {name : String} (h : path.HeadPlain)
    (hn : '%' ∉ name.toList) : ofPointer (.ofPath (path ++ [.member name]))
      = (ofPointer (.ofPath path)).child (.ofPath path) name := by
  rw [ofPointer_concat, Step.token, Pointer.decodeToken_encodeToken hn, child_rewritten h]

-- A name with a `%` may be read as another one, below which the position is a different one.
example :
    let path : Path := [.member "%63omponents"]
    ofPointer (.ofPath (path ++ [.member "schemas"])) = .schemaMap ∧
      (ofPointer (.ofPath path)).child (.ofPath path) "schemas" = .other := by
  decide +kernel

/-- The keywords that lead from a schema to schemas. -/
def keywords : List String :=
  ["items", "not", "additionalProperties", "properties", "patternProperties", "$defs", "definitions",
    "allOf", "anyOf", "oneOf", "prefixItems"]

theorem ofKeyword_of_notMem {name : String} (h : name ∉ keywords) : ofKeyword name = other := by
  simp only [keywords, List.mem_cons, List.not_mem_nil, or_false, not_or] at h
  simp [ofKeyword, h]

/-- An index is no keyword, neither within a schema nor outside. -/
theorem child_index {position : Position} (h : position ≠ .schemaMap) (pointer : Pointer)
    (index : Nat) : position.child pointer (toString index) = position.item := by
  have hne : ∀ {name : String}, name.toList.all Char.isDigit = false → toString index ≠ name := by
    rintro name hname rfl
    rw [List.all_eq_true.mpr fun _ => Pointer.isDigit_of_mem_toString] at hname
    cases hname
  cases position with
  | schemaMap => exact absurd rfl h
  | schemaList => rfl
  | schema =>
      apply ofKeyword_of_notMem
      intro hm
      have hword : ∀ name ∈ keywords, name.toList.all Char.isDigit = false := by decide
      exact hne (hword _ hm) rfl
  | other =>
      rw [child, if_neg (hne (by decide)), if_neg fun hk => hne (by decide) hk.2,
        if_neg fun hk => hne (by decide) hk.2]
      rfl

/-- Replaying agrees with the position that is carried to an item, except below a map of schemas. -/
theorem ofPointer_item_iff (path : Path) (index : Nat) :
    ofPointer (.ofPath (path ++ [.item index])) = (ofPointer (.ofPath path)).item ↔
      ofPointer (.ofPath path) ≠ .schemaMap := by
  rw [ofPointer_concat, Step.token, Pointer.decodeToken_toString]
  constructor
  · intro h hmap
    rw [hmap] at h
    cases h
  · intro h
    exact child_index h _ index

theorem ofPointer_homePath (name : String) : ofPointer (.ofPath (homePath name)) = .schema := rfl

end Position

/-! ## The calls of a walk -/

/-- A call of a walk as it begins: what it is given, and the progress so far. Its pointer is that of the
path. -/
structure Entry where
  fuel : Nat
  base : Url
  path : Path
  position : Position
  value : Json
  before : Progress

/-- The calls that a call makes itself: for an item or a member once those before it are walked, and for
a target that is taken in. The call that makes them may fail later on. -/
inductive Enters (source : Source) (rootUrl : Url) : Entry → Entry → Prop where
  | item (done) {fuel base path position done' item rest s s'}
      (h : Json.walkItems (replaceReference source rootUrl fuel base) (.ofPath path) position.item 0
        done s = .ok done' s') :
      Enters source rootUrl ⟨fuel, base, path, position, .array (done ++ item :: rest), s⟩
        ⟨fuel, base, path ++ [.item done.length], position.item, item, s'⟩
  | member (done) {fuel base path position done' name value rest s s'}
      (hr : (Json.object (done ++ (name, value) :: rest)).reference? = none)
      (h : Json.walkMembers (replaceReference source rootUrl fuel base) (.ofPath path) position done s
        = .ok done' s') :
      Enters source rootUrl
        ⟨fuel, base, path, position, .object (done ++ (name, value) :: rest), s⟩
        ⟨fuel, base, path ++ [.member name], position.child (.ofPath path) name, value, s'⟩
  | inlined {fuel base path position value text target node s s'}
      (hr : value.reference? = some text) (ht : joinReference base text = .ok target)
      (hv : verdict rootUrl target (.ofPath path) position s = .inline)
      (h : Walk.target source base target.document (target.fragment.getD "") text
        (s.atPlace target (.ofPath path)) = .ok node s') :
      Enters source rootUrl ⟨fuel + 1, base, path, position, value, s⟩
        ⟨fuel, target.document, path, .ofPointer (.ofPath path), node, s'⟩
  | hoisted {fuel base path position value text target wanted name node s s'}
      (hr : value.reference? = some text) (ht : joinReference base text = .ok target)
      (hv : verdict rootUrl target (.ofPath path) position s = .hoist wanted)
      (hw : name = Walk.freeName s.taken wanted)
      (h : Walk.target source base target.document (target.fragment.getD "") text
        (s.withName target name) = .ok node s') :
      Enters source rootUrl ⟨fuel + 1, base, path, position, value, s⟩
        ⟨fuel, target.document, homePath name, .schema, node, s'⟩

/-- The calls that a call makes, itself or through others, and the call itself. -/
abbrev Entered (source : Source) (rootUrl : Url) : Entry → Entry → Prop :=
  Relation.ReflTransGen (Enters source rootUrl)

/-- The position that is carried along is the one that the pointer tells. -/
def Entry.Placed (entry : Entry) : Prop := entry.position = .ofPointer (.ofPath entry.path)

/-- No array stands where a map of schemas is expected. -/
def Entry.Orderly (entry : Entry) : Prop :=
  entry.position = .schemaMap → entry.value.asArray? = none

/-- No key of any document holds a `%`. -/
def Library.PercentFree (docs : Library) : Prop :=
  ∀ {base members}, docs.Holds base (.object members) →
    ∀ name ∈ Members.names members, '%' ∉ name.toList

/-- What holds of every call: it is placed, and it walks a part of a document. -/
structure Entry.Sane (source : Source) (docs : Library) (entry : Entry) : Prop where
  placed : entry.Placed
  headPlain : entry.path.HeadPlain
  held : docs.Holds entry.base entry.value
  sees : available source entry.before.shelf = docs

section

variable {source : Source} {docs : Library} {rootUrl : Url} {entry inner : Entry}

/-- What a target is taken in as is the node that it designates. -/
theorem target_run_ok {base target : Url} {text : String} {node : Json} {s s' : Progress}
    (h : Walk.target source base target.document (target.fragment.getD "") text s = .ok node s')
    (hd : available source s.shelf = docs) :
    docs.node? target = some node ∧ available source s'.shelf = docs := by
  obtain ⟨shelf, hshelf, hrun⟩ := Walk.target_run hd base target text
  rw [hrun] at h
  cases hn : docs.node? target with
  | none =>
      rw [hn] at h
      cases h
  | some found =>
      rw [hn] at h
      cases h
      exact ⟨rfl, hshelf⟩

theorem Enters.sane (h : Enters source rootUrl entry inner) (hd : docs.Proper)
    (hk : docs.PercentFree) (ho : entry.Orderly) (he : entry.Sane source docs) :
    inner.Sane source docs := by
  obtain ⟨hplaced, hhead, hheld, hsees⟩ := he
  cases h with
  | @item done fuel base path position _ item rest s _ h =>
      have hmap : position ≠ .schemaMap := fun hp => absurd (ho hp) (by simp [Json.asArray?])
      have hposition : position = .ofPointer (.ofPath path) := hplaced
      refine ⟨?_, Path.headPlain_concat (.inr trivial), hheld.of_mem_items (by simp), ?_⟩
      · show position.item = _
        rw [hposition] at hmap ⊢
        exact ((Position.ofPointer_item_iff path done.length).mpr hmap).symm
      · exact (sees_walkItems (fun hr h => sees_replaceReference fuel hr h) done h hsees).2
  | @member done fuel base path position _ name value rest s _ hr h =>
      have hposition : position = .ofPointer (.ofPath path) := hplaced
      have hm : (name, value) ∈ done ++ (name, value) :: rest :=
        List.mem_append_right _ List.mem_cons_self
      have hname : '%' ∉ name.toList := hk hheld name (List.mem_map_of_mem hm)
      refine ⟨?_, Path.headPlain_concat (.inr hname), hheld.of_mem_members hd hm, ?_⟩
      · show position.child _ _ = _
        rw [hposition]
        exact (Position.ofPointer_member hhead hname).symm
      · exact (sees_walkMembers (fun hr h => sees_replaceReference fuel hr h) done h hsees).2
  | inlined hr ht hv h =>
      obtain ⟨hnode, hsees'⟩ := target_run_ok h hsees
      exact ⟨rfl, hhead, .of_node? hnode, hsees'⟩
  | hoisted hr ht hv hw h =>
      obtain ⟨hnode, hsees'⟩ := target_run_ok h hsees
      refine ⟨(Position.ofPointer_homePath _).symm, ?_, .of_node? hnode, hsees'⟩
      intro step heq
      simp [homePath] at heq

/-- Every call that a sane one makes is sane, if no array stands where a map of schemas is expected. -/
theorem Entered.sane (h : Entered source rootUrl entry inner) (hd : docs.Proper)
    (hk : docs.PercentFree) (ho : ∀ {call}, Entered source rootUrl entry call → call.Orderly)
    (he : entry.Sane source docs) : inner.Sane source docs := by
  induction h with
  | refl => exact he
  | tail hbelow hmakes ih => exact hmakes.sane hd hk (ho hbelow) ih

end

/-! ## Walks that replay -/

/-- Replaces a Reference Object as bundling does, but decides by the position that the pointer tells, here
and in what is taken in. -/
def replaceReplayed (source : Source) (rootUrl : Url) : Nat → Url → OnReference
  | 0, base, _, _, _, _ => throw (.retrieval (.nestedTooDeeply base.text))
  | fuel + 1, base, value, text, pointer, _ => fun s =>
    match joinReference base text with
    | .error error => .error error s
    | .ok target =>
      let take (pointer : Pointer) : Walk Json := do
        let node ← Walk.target source base target.document (target.fragment.getD "") text
        node.walk (replaceReplayed source rootUrl fuel target.document) pointer .other
      match verdict rootUrl target pointer (.ofPointer pointer) s with
      | .link new => .ok (value.withReference new) s
      | .inline => take pointer (s.atPlace target pointer)
      | .hoist wanted =>
        let name := Walk.freeName s.taken wanted
        match take (Pointer.home name) (s.withName target name) with
        | .ok schema s' =>
          .ok (value.withReference ("#" ++ (Pointer.home name).text)) (s'.withSchema name schema)
        | .error error s' => .error error s'

theorem walkItems_concat_run {f : OnReference} {pointer : Pointer} {position : Position}
    {index : Nat} {done done' : List Json} {item item' : Json} {s s₁ s₂ : Progress}
    (hdone : Json.walkItems f pointer position index done s = .ok done' s₁)
    (hitem : item.walk f (pointer.item (index + done.length)) position s₁ = .ok item' s₂) :
    Json.walkItems f pointer position index (done ++ [item]) s = .ok (done' ++ [item']) s₂ := by
  induction done generalizing index done' s with
  | nil =>
      unfold Json.walkItems at hdone
      cases hdone
      rw [List.length_nil, Nat.add_zero] at hitem
      rw [List.nil_append, Json.walkItems, Walk.bind_run_ok hitem]
      rfl
  | cons first rest ih =>
      rw [Json.walkItems, Walk.bind_run] at hdone
      rw [List.cons_append, Json.walkItems, Walk.bind_run]
      split at hdone
      · next first' s' hfirst =>
          rw [Walk.bind_run] at hdone
          split at hdone
          · next rest' s'' hrest =>
              cases hdone
              rw [List.length_cons, ← Nat.add_assoc, Nat.add_right_comm] at hitem
              exact Walk.bind_run_ok (ih hrest hitem) _
          · cases hdone
      · cases hdone

theorem walkMembers_concat_run {f : OnReference} {pointer : Pointer} {position : Position}
    {done done' : List (String × Json)} {name : String} {value value' : Json} {s s₁ s₂ : Progress}
    (hdone : Json.walkMembers f pointer position done s = .ok done' s₁)
    (hvalue : value.walk f (pointer.member name) (position.child pointer name) s₁ = .ok value' s₂) :
    Json.walkMembers f pointer position (done ++ [(name, value)]) s
      = .ok (done' ++ [(name, value')]) s₂ := by
  induction done generalizing done' s with
  | nil =>
      unfold Json.walkMembers at hdone
      cases hdone
      rw [List.nil_append, Json.walkMembers, Walk.bind_run_ok hvalue]
      rfl
  | cons first rest ih =>
      obtain ⟨key, found⟩ := first
      rw [Json.walkMembers, Walk.bind_run] at hdone
      rw [List.cons_append, Json.walkMembers, Walk.bind_run]
      split at hdone
      · next found' s' hfound =>
          rw [Walk.bind_run] at hdone
          split at hdone
          · next rest' s'' hrest =>
              cases hdone
              exact Walk.bind_run_ok (ih hrest) _
          · cases hdone
      · cases hdone

section

variable {source : Source} {rootUrl base : Url} {fuel : Nat}

/-- With this fuel, references are replaced the same by replaying if all calls are placed. -/
def Replays (source : Source) (rootUrl : Url) (fuel : Nat) (base : Url) : Prop :=
  ∀ {value text path position s}, value.reference? = some text →
    (∀ entry, Entered source rootUrl ⟨fuel, base, path, position, value, s⟩ entry → entry.Placed) →
    ∀ position', replaceReference source rootUrl fuel base value text (.ofPath path) position s
      = replaceReplayed source rootUrl fuel base value text (.ofPath path) position' s

mutual

/-- A walk all of whose calls are placed is the one that replays, whatever position that is given. -/
theorem walk_eq_replayed (hr : Replays source rootUrl fuel base) (value : Json) {path : Path}
    {position : Position} {s : Progress}
    (h : ∀ entry, Entered source rootUrl ⟨fuel, base, path, position, value, s⟩ entry →
      entry.Placed) (position' : Position) :
    value.walk (replaceReference source rootUrl fuel base) (.ofPath path) position s
      = value.walk (replaceReplayed source rootUrl fuel base) (.ofPath path) position' s := by
  match value with
  | .object members =>
    cases hreference : (Json.object members).reference? with
    | some text =>
        rw [Json.walk_reference hreference, Json.walk_reference hreference]
        exact hr hreference h position'
    | none =>
        rw [Json.walk_object hreference, Json.walk_object hreference, Walk.map_run, Walk.map_run,
          walkMembers_eq_replayed hr [] members hreference h rfl position']
  | .array items =>
    have hitems := walkItems_eq_replayed hr [] items h rfl position'.item
    rw [List.length_nil] at hitems
    rw [Json.walk_array, Json.walk_array, Walk.map_run, Walk.map_run, hitems]
  | .null | .bool _ | .number _ | .string _ =>
    rw [Json.walk_scalar rfl, Json.walk_scalar rfl]

theorem walkItems_eq_replayed (hr : Replays source rootUrl fuel base) (done rest : List Json)
    {done' : List Json} {path : Path} {position : Position} {s s' : Progress}
    (h : ∀ entry, Entered source rootUrl ⟨fuel, base, path, position, .array (done ++ rest), s⟩
      entry → entry.Placed)
    (hdone : Json.walkItems (replaceReference source rootUrl fuel base) (.ofPath path) position.item 0
      done s = .ok done' s') (position' : Position) :
    Json.walkItems (replaceReference source rootUrl fuel base) (.ofPath path) position.item
        done.length rest s'
      = Json.walkItems (replaceReplayed source rootUrl fuel base) (.ofPath path) position'
        done.length rest s' := by
  match rest with
  | [] => rw [Json.walkItems, Json.walkItems]
  | item :: rest =>
    rw [Json.walkItems, Json.walkItems, Walk.bind_run, Walk.bind_run, ← Pointer.ofPath_item,
      ← walk_eq_replayed hr item (fun entry he => h entry (he.head (.item done hdone))) position']
    cases hitem : item.walk (replaceReference source rootUrl fuel base)
        (.ofPath (path ++ [.item done.length])) position.item s' with
    | error error s'' => rfl
    | ok item' s'' =>
        rw [Pointer.ofPath_item, ← Nat.zero_add done.length] at hitem
        rw [List.append_cons] at h
        have hrest := walkItems_eq_replayed hr (done ++ [item]) rest h
          (walkItems_concat_run hdone hitem) position'
        rw [List.length_append, List.length_singleton] at hrest
        dsimp only
        rw [Walk.bind_run, Walk.bind_run, hrest]

theorem walkMembers_eq_replayed (hr : Replays source rootUrl fuel base)
    (done rest : List (String × Json)) {done' : List (String × Json)} {path : Path}
    {position : Position} {s s' : Progress}
    (hreference : (Json.object (done ++ rest)).reference? = none)
    (h : ∀ entry, Entered source rootUrl ⟨fuel, base, path, position, .object (done ++ rest), s⟩
      entry → entry.Placed)
    (hdone : Json.walkMembers (replaceReference source rootUrl fuel base) (.ofPath path) position done
      s = .ok done' s') (position' : Position) :
    Json.walkMembers (replaceReference source rootUrl fuel base) (.ofPath path) position rest s'
      = Json.walkMembers (replaceReplayed source rootUrl fuel base) (.ofPath path) position' rest
        s' := by
  match rest with
  | [] => rw [Json.walkMembers, Json.walkMembers]
  | (name, value) :: rest =>
    rw [Json.walkMembers, Json.walkMembers, Walk.bind_run, Walk.bind_run, ← Pointer.ofPath_member,
      ← walk_eq_replayed hr value (fun entry he => h entry (he.head (.member done hreference hdone)))
        (position'.child (.ofPath path) name)]
    cases hvalue : value.walk (replaceReference source rootUrl fuel base)
        (.ofPath (path ++ [.member name])) (position.child (.ofPath path) name) s' with
    | error error s'' => rfl
    | ok value' s'' =>
        rw [Pointer.ofPath_member] at hvalue
        rw [List.append_cons] at h hreference
        have hrest := walkMembers_eq_replayed hr (done ++ [(name, value)]) rest hreference h
          (walkMembers_concat_run hdone hvalue) position'
        dsimp only
        rw [Walk.bind_run, Walk.bind_run, hrest]

end

/-- References are replaced the same by replaying, however deeply targets are nested. -/
theorem replays (source : Source) (rootUrl : Url) (fuel : Nat) (base : Url) :
    Replays source rootUrl fuel base := by
  induction fuel generalizing base with
  | zero =>
      intro value text path position s _ _ position'
      rfl
  | succ fuel ih =>
      intro value text path position s hr h position'
      have hposition : position = .ofPointer (.ofPath path) := h _ .refl
      rw [replaceReference_run, replaceReplayed]
      cases ht : joinReference base text with
      | error error => rfl
      | ok target =>
          dsimp only
          rw [show verdict rootUrl target (.ofPath path) (.ofPointer (.ofPath path)) s
            = verdict rootUrl target (.ofPath path) position s by rw [hposition]]
          cases hv : verdict rootUrl target (.ofPath path) position s with
          | link new => rfl
          | inline =>
              dsimp only
              rw [takeIn, Walk.bind_run, Walk.bind_run]
              cases hnode : Walk.target source base target.document (target.fragment.getD "") text
                  (s.atPlace target (.ofPath path)) with
              | error error s' => rfl
              | ok node s' =>
                  exact walk_eq_replayed (ih target.document) node
                    (fun entry he => h entry (he.head (.inlined hr ht hv hnode))) .other
          | hoist wanted =>
              dsimp only
              rw [takeIn, Walk.bind_run, Walk.bind_run]
              cases hnode : Walk.target source base target.document (target.fragment.getD "") text
                  (s.withName target (Walk.freeName s.taken wanted)) with
              | error error s' => rfl
              | ok node s' =>
                  have hwalk := walk_eq_replayed (ih target.document) node
                    (fun entry he => h entry (he.head (.hoisted hr ht hv rfl hnode))) .other
                  rw [ofPath_homePath] at hwalk
                  cases hresult : node.walk (replaceReplayed source rootUrl fuel target.document)
                      (Pointer.home (Walk.freeName s.taken wanted)) .other s' with
                  | ok schema s'' => simp only [hwalk, hresult]
                  | error error s'' => simp only [hwalk, hresult]

end

/-! ## Positions agree -/

section

variable {source : Source} {docs : Library} {shelf : Shelf} {url : Url} {root : Json}
  {start : Progress}

/-- The call that walks the root. -/
def Entry.ofRoot (fuel : Nat) (url : Url) (root : Json) (start : Progress) : Entry :=
  ⟨fuel, url, [], .other, root, start⟩

theorem sane_ofRoot (fuel : Nat) (hd : available source shelf = docs)
    (h : bundleStart source url { shelf } = .ok root start) :
    (Entry.ofRoot fuel url root start).Sane source docs := by
  obtain ⟨hroot, hsees, _⟩ := bundleStart_run_ok hd h
  refine ⟨rfl, ?_, ⟨root, [], hroot, rfl⟩, hsees⟩
  intro step heq
  cases heq

/-- Positions agree in all calls of a bundling, whether it succeeds or not. Where no key holds a `%` and
no array stands where a map of schemas is expected, as written or taken in, each call is given the
position that its pointer tells. So what is taken in at the place of a reference is walked with the position
of the reference. And each call does what it does if the position that it is given is ignored, and all
decisions in it are made by the position that a pointer tells. -/
theorem placed_of_entered {fuel : Nat} {entry : Entry} (hd : available source shelf = docs)
    (hproper : docs.Proper) (hkeys : docs.PercentFree)
    (hstart : bundleStart source url { shelf } = .ok root start)
    (hlists : ∀ {call}, Entered source url (.ofRoot fuel url root start) call → call.Orderly)
    (h : Entered source url (.ofRoot fuel url root start) entry) :
    entry.position = .ofPointer (.ofPath entry.path) ∧
      (∀ {inner}, Enters source url entry inner → inner.path = entry.path →
        inner.position = entry.position) ∧
      ∀ position, entry.value.walk (replaceReference source url entry.fuel entry.base)
          (.ofPath entry.path) entry.position entry.before
        = entry.value.walk (replaceReplayed source url entry.fuel entry.base)
          (.ofPath entry.path) position entry.before := by
  have hplaced : ∀ {call}, Entered source url (.ofRoot fuel url root start) call → call.Placed :=
    fun hc => (hc.sane hproper hkeys hlists (sane_ofRoot fuel hd hstart)).placed
  refine ⟨hplaced h, ?_, ?_⟩
  · intro inner hinner hpath
    rw [hplaced (h.tail hinner), hpath, hplaced h]
  · intro position
    apply walk_eq_replayed (replays source url entry.fuel entry.base)
    intro call hc
    exact hplaced (h.trans hc)

/-! ## Documents without such arrays -/

/-- The names of members that are maps of schemas where they stand in the right place. -/
def mapKeywords : List String :=
  ["properties", "patternProperties", "$defs", "definitions", "schemas"]

theorem mem_mapKeywords {position : Position} {pointer : Pointer} {name : String}
    (h : position.child pointer name = .schemaMap) : name ∈ mapKeywords := by
  cases position with
  | schemaMap => cases h
  | schemaList => cases h
  | schema =>
      rw [Position.child, Position.ofKeyword] at h
      split at h
      · cases h
      · split at h
        · next hk => rcases hk with rfl | rfl | rfl | rfl <;> decide
        · split at h <;> cases h
  | other =>
      rw [Position.child] at h
      split at h
      · cases h
      · split at h
        · next hk =>
          rw [hk.2]
          decide
        · split at h
          · next hk =>
            rw [hk.2]
            decide
          · cases h

/-- No member that may be a map of schemas is an array, and no reference leads to one. -/
structure Library.Unlisted (docs : Library) : Prop where
  member : ∀ {base members name value}, docs.Holds base (.object members) →
    (name, value) ∈ members → name ∈ mapKeywords → value.asArray? = none
  target : ∀ {target node}, docs.Targets target → docs.node? target = some node →
    node.asArray? = none

theorem Enters.orderly {entry inner : Entry} (h : Enters source url entry inner)
    (hu : docs.Unlisted) (he : entry.Sane source docs) : inner.Orderly := by
  obtain ⟨_, _, hheld, hsees⟩ := he
  intro hmap
  cases h with
  | @item done fuel base path position =>
      change position.item = _ at hmap
      rw [Position.item] at hmap
      split at hmap <;> cases hmap
  | @member done fuel base path position _ name value rest =>
      have hm : (name, value) ∈ done ++ (name, value) :: rest :=
        List.mem_append_right _ List.mem_cons_self
      exact hu.member hheld hm (mem_mapKeywords hmap)
  | inlined hr ht hv h => exact hu.target (hheld.targets hr ht) (target_run_ok h hsees).1
  | hoisted => cases hmap

/-- In such documents no array stands where a map of schemas is expected. -/
theorem Library.Unlisted.orderly (hu : docs.Unlisted) {fuel : Nat} {entry : Entry}
    (hd : available source shelf = docs) (hproper : docs.Proper) (hkeys : docs.PercentFree)
    (hstart : bundleStart source url { shelf } = .ok root start)
    (h : Entered source url (.ofRoot fuel url root start) entry) : entry.Orderly := by
  have hboth : entry.Sane source docs ∧ entry.Orderly := by
    induction h with
    | refl => exact ⟨sane_ofRoot fuel hd hstart, fun hmap => by cases hmap⟩
    | tail _ hmakes ih =>
        obtain ⟨hsane, horderly⟩ := ih
        exact ⟨hmakes.sane hproper hkeys horderly hsane, hmakes.orderly hu hsane⟩
  exact hboth.2

/-- Whether no member of listed documents that may be a map of schemas is an array, and no reference
leads to one. -/
def Library.isUnlisted (docs : Library) (entries : List (Url × Json)) : Bool :=
  entries.all fun (base, tree) =>
    ((tree.sites []).all fun (_, value) => value.asObject?.all fun members =>
      members.all fun (name, below) => !mapKeywords.contains name || below.asArray?.isNone) &&
    tree.references.all fun text => (joinReference base text).toOption.all fun target =>
      (docs.node? target).all (·.asArray?.isNone)

theorem unlisted_of_listed {entries : List (Url × Json)}
    (hfinite : ∀ {base tree}, docs base = some tree → (base, tree) ∈ entries)
    (h : docs.isUnlisted entries = true) : docs.Unlisted where
  member := by
    rintro base members name value ⟨tree, path, hd, ha⟩ hm hname
    have htree := List.all_eq_true.mp h _ (hfinite hd)
    rw [Bool.and_eq_true] at htree
    have hnode := List.all_eq_true.mp htree.1 _ (Json.mem_sites_of_at? [] ha)
    have hmember := List.all_eq_true.mp hnode _ hm
    rw [Bool.or_eq_true, Bool.not_eq_true', List.contains_eq_mem, decide_eq_false_iff_not] at hmember
    exact Option.isNone_iff_eq_none.mp (hmember.resolve_left (not_not_intro hname))
  target := by
    rintro target node ⟨base, tree, text, hd, hm, ht⟩ hn
    have htree := List.all_eq_true.mp h _ (hfinite hd)
    rw [Bool.and_eq_true] at htree
    have htext := List.all_eq_true.mp htree.2 text hm
    rw [ht] at htext
    change (docs.node? target).all _ = true at htext
    rw [hn] at htext
    exact Option.isNone_iff_eq_none.mp htext

end

/-- A schema that refers to a document as a whole. -/
def wholeReferring : Json :=
  .object [("properties", .object [("q", .object [("$ref", .string "e")])])]

/-- A root with a schema that takes in a schema of another document, which refers to that document as a
whole. -/
def wholeRoot : Members :=
  [("schema", .object [("allOf", .array [.object [("$ref", .string "e#/y")]])])]

def wholeShelf : Shelf := rootAndOther wholeRoot "e" (.object [("y", wholeReferring)])

/-- The reference in the schema that is taken in stands at a schema, as its pointer tells. This decides
that the whole document is hoisted. -/
theorem placed_whole :
    let root := Json.object (("openapi", .string "3.0.0") :: wholeRoot)
    let entered := Entered .empty rootUrl (.ofRoot 2 rootUrl root { shelf := wholeShelf })
    ∃ entry, entered entry ∧ entry.value = .object [("$ref", .string "e")] ∧
      entry.path = [.member "schema", .member "allOf", .item 0, .member "properties", .member "q"] ∧
      entry.position = .ofPointer (.ofPath entry.path) ∧
      hoistName? entry.base "" entry.position = some "e" ∧ hoistName? entry.base "" .other = none ∧
      ∀ position, entry.value.walk (replaceReference .empty rootUrl entry.fuel entry.base)
          (.ofPath entry.path) entry.position entry.before
        = entry.value.walk (replaceReplayed .empty rootUrl entry.fuel entry.base)
          (.ofPath entry.path) position entry.before := by
  intro root entered
  have hall : ∀ entry ∈ wholeShelf, entry.2.proper = true := by decide +kernel
  have hproper : Library.Proper (available .empty wholeShelf) :=
    fun hd => hall _ (mem_of_available_empty hd)
  have hnames : allNames (fun name => !name.toList.contains '%') wholeShelf = true := by
    decide +kernel
  have hkeys : Library.PercentFree (available .empty wholeShelf) := by
    rintro base members ⟨tree, path, hd, ha⟩ name hm
    simpa using of_allNames mem_of_available_empty hnames hd ha hm
  have hunlisted : Library.Unlisted (available .empty wholeShelf) :=
    unlisted_of_listed mem_of_available_empty (by decide +kernel)
  have hstart : bundleStart .empty rootUrl { shelf := wholeShelf }
      = .ok root { shelf := wholeShelf } := rfl
  have hjoin : joinReference rootUrl "e#/y"
      = .ok ⟨"mem", some {}, .segments ["e"], none, some "/y"⟩ := rfl
  have hschema : entered _ := .single (.member [("openapi", .string "3.0.0")] rfl rfl)
  have hallOf : entered _ := hschema.tail (.member [] rfl rfl)
  have hitem : entered _ := hallOf.tail (.item [] rfl)
  have htaken : entered _ := hitem.tail (.inlined rfl hjoin rfl rfl)
  have hproperties : entered _ := htaken.tail (.member [] rfl rfl)
  have hsite : entered _ := hproperties.tail (.member [] rfl rfl)
  have hplaced := placed_of_entered rfl hproper hkeys hstart
    (fun hc => hunlisted.orderly rfl hproper hkeys hstart hc) hsite
  exact ⟨_, hsite, rfl, rfl, hplaced.1, rfl, rfl, hplaced.2.2⟩

end OpenApi
