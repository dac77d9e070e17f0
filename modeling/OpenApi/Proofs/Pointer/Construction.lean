import OpenApi.Proofs.Pointer.Escape

/-!
# Fragments built step by step

Walking down a tree builds the fragment of each node: a slash and a token for every step, where a name
is escaped and an index is written in decimal. `fragment_eq_text` says that this is the text of the
pointer of the path, so a fragment is read back as the tokens that it was built from.

A fragment leads back along the path that it was built for, and to the node there, if every name in it
is read back from its token. That is so for just the names without an escape, and in particular for all
names without a `%` (`locate?_fragment_iff`). The one path that is not read back for another reason is
that of the empty name at the root, whose fragment `/` stands for the whole document.

A link is `#` and a fragment. It has an escape in its text exactly if a name on its path has one
(`Path.hasEscape_link_iff`), and without one it resolves wherever its path does.

Fragments tell paths apart where the names alone are at stake (`fragment_names_injective`), whatever
they hold. A name of digits and an index have one token, so paths that mix both are told apart only
within one tree, where no value has members and items.
-/

namespace OpenApi

/-- The fragment built for a path. -/
def Path.fragment (path : Path) : String :=
  path.foldl (fun built step => built ++ ("/" ++ step.token)) ""

/-- A step whose name, if it has one, holds no `%`. -/
def Step.Plain : Step → Prop
  | .member name => '%' ∉ name.toList
  | .item _ => True

/-- A step whose name, if it has one, is read back from its token: it holds no percent-escape. -/
def Step.ReadBack : Step → Prop
  | .member name => Text.hasEscape name.toList = false
  | .item _ => True

theorem Step.Plain.readBack {step : Step} (h : step.Plain) : step.ReadBack := by
  cases step with
  | member name => exact Text.hasEscape_of_notMem h
  | item index => exact trivial

namespace Path

/-- What is built step by step is the text of the pointer. -/
theorem fragment_eq_text (path : Path) : fragment path = (Pointer.ofPath path).text := by
  -- on the steps that are left, behind what is built so far
  have hbuilt : ∀ built : String,
      (path.foldl (fun built step => built ++ ("/" ++ step.token)) built).toList
        = built.toList ++ path.flatMap fun step => '/' :: step.token.toList := by
    induction path with
    | nil => simp
    | cons step rest ih =>
        intro built
        rw [List.foldl_cons, ih, String.toList_append, String.toList_append, List.flatMap_cons,
          List.append_assoc]
        rfl
  apply String.toList_injective
  rw [fragment, hbuilt, Pointer.ofPath_eq, Pointer.toList_text, List.flatMap_map]
  rfl

end Path

/-! ## Back to the path -/

namespace Json

/-- A token takes the step that it was written for exactly if the name of the step is read back. -/
theorem stepOf?_token_iff {value child : Json} {step : Step} (h : value.step? step = some child) :
    value.stepOf? step.token = some step ↔ step.ReadBack := by
  cases value with
  | object members =>
      cases step with
      | item index => cases h
      | member name =>
          rw [Step.ReadBack, ← Pointer.decodeToken_encodeToken_iff]
          constructor
          · intro hstep
            rw [stepOf?, Step.token, Option.ite_none_right_eq_some, Option.some.injEq] at hstep
            exact Step.member.inj hstep.2
          · intro hread
            have hl : members.lookup name = some child := h
            simp [stepOf?, Step.token, hread, hl]
  | array items =>
      cases step with
      | member name => cases h
      | item index =>
          refine ⟨fun _ => trivial, fun _ => ?_⟩
          obtain ⟨hi, _⟩ := List.getElem?_eq_some_iff.mp h
          rw [stepOf?, Step.token, Pointer.decodeToken_toString, Pointer.index?_toString,
            Option.bind_some, if_pos hi]
  | _ => cases step <;> cases h

theorem trace?_tokens_iff {tree node : Json} {path : Path} (h : tree.at? path = some node) :
    tree.trace? (path.map Step.token) = some path ↔ ∀ step ∈ path, step.ReadBack := by
  induction path generalizing tree with
  | nil => simp [trace?]
  | cons step rest ih =>
      obtain ⟨child, hc, hn⟩ := Option.bind_eq_some_iff.mp h
      rw [List.forall_mem_cons, ← stepOf?_token_iff hc, ← ih hn, List.map_cons, trace?]
      constructor
      · intro htrace
        obtain ⟨first, hfirst, htrace⟩ := Option.bind_eq_some_iff.mp htrace
        obtain ⟨below, hbelow, htrace⟩ := Option.bind_eq_some_iff.mp htrace
        obtain ⟨tail, htail, heq⟩ := Option.map_eq_some_iff.mp htrace
        cases heq
        cases hc.symm.trans hbelow
        exact ⟨hfirst, htail⟩
      · rintro ⟨hfirst, htail⟩
        rw [hfirst, Option.bind_some, hc, Option.bind_some, htail, Option.map_some]

/-- The fragment of the empty name at the root means the whole tree. -/
theorem locate?_fragment_empty (tree : Json) : tree.locate? (Path.fragment [.member ""]) = some [] :=
  rfl

/-- A fragment leads back along the path that it was built for exactly if every name in the path is
read back, and the path is not the single empty name. -/
theorem locate?_fragment_iff {tree node : Json} {path : Path} (h : tree.at? path = some node) :
    tree.locate? (Path.fragment path) = some path ↔
      (∀ step ∈ path, step.ReadBack) ∧ path ≠ [.member ""] := by
  by_cases hne : path = [.member ""]
  · subst hne
    rw [locate?_fragment_empty]
    simp
  · rw [locate?, Path.fragment_eq_text, Pointer.parse?_text_ofPath hne, Option.bind_some,
      Pointer.tokens_ofPath, trace?_tokens_iff h]
    exact ⟨fun hread => ⟨hread, hne⟩, And.left⟩

end Json

/-! ## Links -/

theorem Step.hasEscape_token {step : Step} :
    Text.hasEscape step.token.toList = false ↔ step.ReadBack := by
  cases step with
  | member name =>
      rw [Step.token, Pointer.toList_encodeToken, Pointer.hasEscape_flatMap_escape]
      rfl
  | item index =>
      exact iff_of_true (Text.hasEscape_of_notMem (Pointer.notMem_toString rfl)) trivial

/-- A link has an escape exactly if a name on its path has one. -/
theorem Path.hasEscape_link_iff {path : Path} :
    Text.hasEscape ("#" ++ (Pointer.ofPath path).text).toList = false ↔
      ∀ step ∈ path, step.ReadBack := by
  have htext : ("#" ++ (Pointer.ofPath path).text).toList
      = '#' :: path.flatMap fun step => '/' :: step.token.toList := by
    rw [String.toList_append, Pointer.ofPath_eq, Pointer.toList_text, List.flatMap_map]
    rfl
  rw [htext, Text.hasEscape_cons (Text.startsPlain_of_ne (by decide) _)]
  clear htext
  induction path with
  | nil => exact iff_of_true rfl (List.forall_mem_nil _)
  | cons step rest ih =>
      -- the slash before the next token is no digit
      have hnext : ∀ c more, (rest.flatMap fun step => '/' :: step.token.toList) = c :: more →
          Text.hexValue? c = none := by
        intro c more heq
        cases rest with
        | nil => cases heq
        | cons next rest =>
            cases heq
            rfl
      rw [List.flatMap_cons, List.cons_append,
        Text.hasEscape_cons (Text.startsPlain_of_ne (by decide) _), Text.hasEscape_append hnext,
        Bool.or_eq_false_iff, List.forall_mem_cons]
      exact and_congr Step.hasEscape_token ih

namespace Json

/-- A link to the pointer of a path leads along just that path, if every name on it is read back. -/
theorem locateLocal?_link {tree node : Json} {path : Path} (hp : ∀ step ∈ path, step.ReadBack)
    (hne : path ≠ [.member ""]) (h : tree.at? path = some node) :
    tree.locateLocal? ("#" ++ (Pointer.ofPath path).text) = some path := by
  rw [locateLocal?_hash, ← Path.fragment_eq_text]
  exact (locate?_fragment_iff h).mpr ⟨hp, hne⟩

/-- A link to a path that a tree has resolves in it, if every name on the path is read back. -/
theorem isSome_resolveLocal?_link {tree node : Json} {path : Path}
    (hp : ∀ step ∈ path, step.ReadBack) (ha : tree.at? path = some node) :
    (tree.resolveLocal? ("#" ++ (Pointer.ofPath path).text)).isSome = true := by
  by_cases hne : path = [.member ""]
  · -- the pointer `/` means the whole tree
    subst hne
    rw [resolveLocal?_eq_locateLocal?, locateLocal?_hash]
    rfl
  · exact isSome_resolveLocal?_of_at? (locateLocal?_link hp hne ha) ha

end Json

/-! ## Paths told apart -/

theorem Pointer.tokens_eq_of_text_eq {tokens tokens' : List String}
    (h : ∀ token ∈ tokens, '/' ∉ token.toList) (h' : ∀ token ∈ tokens', '/' ∉ token.toList)
    (heq : text ⟨tokens⟩ = text ⟨tokens'⟩) : tokens = tokens' := by
  have hl := congrArg String.toList heq
  rw [toList_text, toList_text] at hl
  cases tokens with
  | nil =>
      cases tokens' with
      | nil => rfl
      | cons first' rest' => cases hl
  | cons first rest =>
      cases tokens' with
      | nil => cases hl
      | cons first' rest' =>
          -- behind the first slash both texts are cut at the others
          rw [List.flatMap_cons, List.flatMap_cons, List.cons_append, List.cons_append] at hl
          have hcut := congrArg (Text.splitAt '/') (List.cons.inj hl).2
          rw [splitAt_tokens h, splitAt_tokens h'] at hcut
          exact (List.map_inj_right fun _ _ => String.toList_inj.mp).mp hcut

namespace Path

theorem tokens_eq_of_fragment_eq {path path' : Path} (h : fragment path = fragment path') :
    path.map Step.token = path'.map Step.token := by
  rw [fragment_eq_text, fragment_eq_text, Pointer.ofPath_eq, Pointer.ofPath_eq] at h
  exact Pointer.tokens_eq_of_text_eq Pointer.slash_notMem_tokens Pointer.slash_notMem_tokens h

/-- Different lists of names have different fragments. -/
theorem fragment_names_injective :
    Function.Injective fun names : List String => fragment (names.map .member) := by
  intro names names' h
  have htokens := tokens_eq_of_fragment_eq h
  rw [List.map_map, List.map_map] at htokens
  exact (List.map_inj_right fun _ _ h => Pointer.encodeToken_injective h).mp htokens

end Path

/-- Different paths into one tree have different fragments. -/
theorem Json.path_eq_of_fragment_eq {tree node node' : Json} {path path' : Path}
    (h : tree.at? path = some node) (h' : tree.at? path' = some node')
    (heq : Path.fragment path = Path.fragment path') : path = path' := by
  have htokens := Path.tokens_eq_of_fragment_eq heq
  rw [← Pointer.tokens_ofPath, ← Pointer.tokens_ofPath] at htokens
  exact path_eq_of_ofPath_eq h h' (congrArg Pointer.mk htokens)

/-! ## What fragments denote -/

/-- Take a path to a node of a tree. If no name in it holds a `%` and it is not the single empty name,
its fragment takes just that path and resolves to the node. It takes the path exactly if every name is
read back and the path is not the single empty name. Different lists of names have different
fragments, and so have different paths into one tree. -/
theorem Json.fragment_denotes :
    (∀ {tree node : Json} {path : Path}, tree.at? path = some node →
      ((∀ step ∈ path, step.Plain) → path ≠ [.member ""] →
        tree.locate? (Path.fragment path) = some path ∧
        tree.resolve? (Path.fragment path) = some node) ∧
      (tree.locate? (Path.fragment path) = some path ↔
        (∀ step ∈ path, step.ReadBack) ∧ path ≠ [.member ""])) ∧
    (∀ {names names' : List String}, names ≠ names' →
      Path.fragment (names.map .member) ≠ Path.fragment (names'.map .member)) ∧
    ∀ {tree node node' : Json} {path path' : Path}, tree.at? path = some node →
      tree.at? path' = some node' → path ≠ path' → Path.fragment path ≠ Path.fragment path' := by
  refine ⟨fun {tree node path} h => ⟨fun hplain hne => ?_, locate?_fragment_iff h⟩,
    fun hne heq => hne (Path.fragment_names_injective heq),
    fun h h' hne heq => hne (path_eq_of_fragment_eq h h' heq)⟩
  have hlocate : tree.locate? (Path.fragment path) = some path :=
    (locate?_fragment_iff h).mpr ⟨fun step hs => (hplain step hs).readBack, hne⟩
  refine ⟨hlocate, ?_⟩
  rw [resolve?_eq_locate?, hlocate]
  exact h

/-- A tree whose names are made of marks and digits, or of nothing. -/
def markedTree : Json :=
  .object [("a/b~", .array [.null, .object [("", .object [("~0", .bool true), ("0", .null)])]]),
    ("a", .object [("b~", .null)])]

/-- A path in that tree. -/
def markedPath : Path := [.member "a/b~", .item 1, .member "", .member "~0"]

/-- The path is read back from its fragment, and no other one has it: not that of a name that is the
same but for a slash, which a name and a step into it are not. -/
theorem fragment_denotes_marked :
    markedTree.at? markedPath = some (.bool true) ∧ (∀ step ∈ markedPath, step.Plain) ∧
    markedPath ≠ [.member ""] ∧ Path.fragment markedPath = "/a~1b~0/1//~00" ∧
    markedTree.locate? "/a~1b~0/1//~00" = some markedPath ∧
    markedTree.resolve? "/a~1b~0/1//~00" = some (.bool true) ∧
    (∀ step ∈ markedPath, step.ReadBack) ∧
    Path.fragment (["a/b~"].map .member) ≠ Path.fragment (["a", "b~"].map .member) ∧
    markedTree.at? [.member "a", .member "b~"] = some .null ∧
    Path.fragment markedPath ≠ Path.fragment [.member "a", .member "b~"] := by
  have hat : markedTree.at? markedPath = some (.bool true) := rfl
  have hother : markedTree.at? [.member "a", .member "b~"] = some .null := rfl
  have hplain : ∀ step ∈ markedPath, step.Plain := by
    simp [markedPath, Step.Plain]
  have hne : markedPath ≠ [.member ""] := by decide
  have hfragment : Path.fragment markedPath = "/a~1b~0/1//~00" := by decide
  obtain ⟨hdenotes, hnames, hpaths⟩ := Json.fragment_denotes
  obtain ⟨hlocate, hresolve⟩ := (hdenotes hat).1 hplain hne
  have hread := ((hdenotes hat).2.mp hlocate).1
  rw [hfragment] at hlocate hresolve
  exact ⟨hat, hplain, hne, hfragment, hlocate, hresolve, hread, hnames (by decide), hother,
    hpaths hat hother (by decide)⟩

end OpenApi
