import OpenApi.Proofs.Json.Path

/-!
# Pointers read back from their texts

Names are escaped so that no token holds a slash, which makes a pointer and its text determine each
other: `parse?_text_ofPath`. The one exception is the path to a member with the empty name at the root,
whose pointer `/` means the whole document. Within one tree the pointers of two paths tell them apart,
`path_eq_of_ofPath_eq`.

A token is read by undoing percent-escapes first and `~`-escapes second, and the latter in two passes,
of which `unescape` is the composition (`unescape_eq_replaceMark`). Writing makes no percent-escapes, so
a name is read back as itself if it holds no `%`; an index is always read back.
-/

namespace OpenApi

namespace Text

theorem splitAt_of_notMem {mark : Char} {text : List Char} (h : mark ∉ text) :
    splitAt mark text = [text] := by
  induction text with
  | nil => rfl
  | cons c rest ih =>
      rw [List.mem_cons, not_or] at h
      rw [splitAt, if_neg (Ne.symm h.1), ih h.2]

theorem splitAt_append {mark : Char} {piece : List Char} (h : mark ∉ piece) (rest : List Char) :
    splitAt mark (piece ++ mark :: rest) = piece :: splitAt mark rest := by
  induction piece with
  | nil => rw [List.nil_append, splitAt, if_pos rfl]
  | cons c more ih =>
      rw [List.mem_cons, not_or] at h
      rw [List.cons_append, splitAt, if_neg (Ne.symm h.1), ih h.2]

end Text

namespace Pointer

/-! ## Tokens -/

/-- Replaces `~` and a mark by a character, from left to right. -/
def replaceMark (mark result : Char) : List Char → List Char
  | [] => []
  | '~' :: c :: rest =>
    if c = mark then result :: replaceMark mark result rest
    else '~' :: replaceMark mark result (c :: rest)
  | c :: rest => c :: replaceMark mark result rest

theorem replaceMark_cons {mark result c : Char} (h : c ≠ '~') (rest : List Char) :
    replaceMark mark result (c :: rest) = c :: replaceMark mark result rest := by
  rw [replaceMark]
  rintro _ _ rfl
  exact absurd rfl h

/-- Replacing `~1` puts no `0` at the start. -/
theorem exists_replaceMark_one {c : Char} (h : c ≠ '0') (rest : List Char) :
    ∃ d more, replaceMark '1' '/' (c :: rest) = d :: more ∧ d ≠ '0' := by
  rw [replaceMark.eq_def]
  split
  · next heq => cases heq
  · split
    · exact ⟨_, _, rfl, by decide⟩
    · exact ⟨_, _, rfl, by decide⟩
  · next heq =>
      cases heq
      exact ⟨_, _, rfl, h⟩

/-- Undoing escapes is replacing `~1` everywhere first and then `~0`: no `~0` comes about by the first
pass. -/
theorem unescape_eq_replaceMark (text : List Char) :
    unescape text = replaceMark '0' '~' (replaceMark '1' '/' text) := by
  fun_induction unescape text with
  | case1 => rfl
  | case2 rest ih => rw [replaceMark, if_pos rfl, replaceMark_cons (by decide), ih]
  | case3 rest ih =>
      have hfirst : replaceMark '1' '/' ('~' :: '0' :: rest)
          = '~' :: '0' :: replaceMark '1' '/' rest := by
        rw [replaceMark, if_neg (by decide), replaceMark_cons (by decide)]
      rw [hfirst, replaceMark, if_pos rfl, ih]
  | case4 c rest hone hzero ih =>
      by_cases hc : c = '~'
      · subst hc
        cases rest with
        | nil => rfl
        | cons d more =>
            have hd : d ≠ '0' := fun heq => hzero more rfl (by rw [heq])
            have hd' : d ≠ '1' := fun heq => hone more rfl (by rw [heq])
            obtain ⟨e, after, heq, he⟩ := exists_replaceMark_one hd more
            rw [replaceMark, if_neg hd', ih, heq, replaceMark, if_neg he]
      · rw [replaceMark_cons hc, replaceMark_cons hc, ih]

/-- The written form of a character is read as the character, whatever follows it. -/
theorem unescape_escape_append (c : Char) (rest : List Char) :
    unescape (escape c ++ rest) = c :: unescape rest := by
  rw [escape]
  by_cases ht : c = '~'
  · subst ht
    rw [if_pos rfl, List.cons_append, List.cons_append, List.nil_append, unescape]
  · by_cases hs : c = '/'
    · subst hs
      rw [if_neg ht, if_pos rfl, List.cons_append, List.cons_append, List.nil_append, unescape]
    · rw [if_neg ht, if_neg hs, List.singleton_append, unescape]
      · rintro _ rfl
        exact absurd rfl ht
      · rintro _ rfl
        exact absurd rfl ht

theorem unescape_escape (name : List Char) : unescape (name.flatMap escape) = name := by
  induction name with
  | nil => rfl
  | cons c rest ih => rw [List.flatMap_cons, unescape_escape_append, ih]

theorem slash_notMem_escape (c : Char) : '/' ∉ escape c := by
  unfold escape
  split
  · decide
  · split
    · decide
    · next hs =>
        rw [List.mem_singleton]
        exact Ne.symm hs

theorem eq_percent_of_mem_escape {c : Char} (h : '%' ∈ escape c) : c = '%' := by
  unfold escape at h
  split at h
  · exact absurd h (by decide)
  · split at h
    · exact absurd h (by decide)
    · exact (List.mem_singleton.mp h).symm

@[simp]
theorem toList_encodeToken (name : String) :
    (encodeToken name).toList = name.toList.flatMap escape := by
  rw [encodeToken, String.toList_ofList]

theorem slash_notMem_encodeToken (name : String) : '/' ∉ (encodeToken name).toList := by
  rw [toList_encodeToken, List.mem_flatMap]
  rintro ⟨c, _, hc⟩
  exact slash_notMem_escape c hc

theorem encodeToken_injective : Function.Injective encodeToken := by
  intro a b h
  have hl : a.toList.flatMap escape = b.toList.flatMap escape := by
    rw [← toList_encodeToken, ← toList_encodeToken, h]
  have hu : a.toList = b.toList := by
    rw [← unescape_escape a.toList, hl, unescape_escape]
  exact String.toList_injective hu

/-- A name without `%` is read back as itself. -/
theorem decodeToken_encodeToken {name : String} (h : '%' ∉ name.toList) :
    decodeToken (encodeToken name) = name := by
  have he : '%' ∉ name.toList.flatMap escape := by
    rw [List.mem_flatMap]
    rintro ⟨c, hc, hm⟩
    exact h (eq_percent_of_mem_escape hm ▸ hc)
  rw [decodeToken, toList_encodeToken, Text.percentDecode_eq_self he, unescape_escape,
    String.ofList_toList]

/-! ## Indices -/

theorem toList_toString (index : Nat) : (toString index).toList = Nat.toDigits 10 index :=
  Nat.toList_repr

theorem isDigit_of_mem_toString {index : Nat} {c : Char} (h : c ∈ (toString index).toList) :
    c.isDigit = true := by
  rw [toList_toString] at h
  exact Nat.isDigit_of_mem_toDigits (by decide) (by decide) h

theorem notMem_toString {index : Nat} {c : Char} (h : c.isDigit = false) :
    c ∉ (toString index).toList := by
  intro hm
  rw [isDigit_of_mem_toString hm] at h
  simp at h

theorem unescape_of_notMem {text : List Char} (h : '~' ∉ text) : unescape text = text := by
  induction text with
  | nil => rfl
  | cons c rest ih =>
      rw [List.mem_cons, not_or] at h
      rw [unescape, ih h.2]
      · rintro _ rfl
        exact absurd rfl h.1
      · rintro _ rfl
        exact absurd rfl h.1

theorem decodeToken_toString (index : Nat) : decodeToken (toString index) = toString index := by
  rw [decodeToken, Text.percentDecode_eq_self (notMem_toString rfl),
    unescape_of_notMem (notMem_toString rfl), String.ofList_toList]

theorem index?_toString (index : Nat) : index? (toString index) = some index := by
  have hdigits : (Nat.toDigits 10 index).all Char.isDigit = true := by
    rw [List.all_eq_true]
    intro c hc
    exact Nat.isDigit_of_mem_toDigits (by decide) (by decide) hc
  -- digits alone: there is no sign to strip
  have hsign : ∀ rest, Nat.toDigits 10 index ≠ '+' :: rest := by
    intro rest heq
    have hplus := List.all_eq_true.mp hdigits '+' (heq ▸ List.mem_cons_self)
    exact absurd hplus (by decide)
  have hvalue : (Nat.toDigits 10 index).foldl
      (fun value c => 10 * value + (c.toNat - '0'.toNat)) 0 = index := by
    rw [← Nat.ofDigitChars_eq_foldl]
    exact Nat.ofDigitChars_ten_toDigits
  simp only [index?, toList_toString, hvalue]
  rw [if_neg]
  rintro (hempty | hall)
  · exact Nat.toDigits_ne_nil (List.isEmpty_iff.mp hempty)
  · exact hall hdigits

/-! ## Pointers and their texts -/

theorem toList_text (tokens : List String) :
    (text ⟨tokens⟩).toList = tokens.flatMap fun token => '/' :: token.toList := by
  rw [text, String.toList_join, List.flatMap_map]
  simp only [String.toList_append]
  rfl

theorem splitAt_tokens {first : String} {rest : List String}
    (h : ∀ token ∈ first :: rest, '/' ∉ token.toList) :
    Text.splitAt '/' (first.toList ++ rest.flatMap fun token => '/' :: token.toList)
      = (first :: rest).map String.toList := by
  induction rest generalizing first with
  | nil =>
      rw [List.flatMap_nil, List.append_nil, Text.splitAt_of_notMem (h first List.mem_cons_self)]
      rfl
  | cons second rest ih =>
      have hfirst := h first List.mem_cons_self
      have hrest : ∀ token ∈ second :: rest, '/' ∉ token.toList :=
        fun token ht => h token (List.mem_cons_of_mem _ ht)
      rw [List.flatMap_cons, List.cons_append, Text.splitAt_append hfirst, ih hrest]
      rfl

/-- A pointer is read back from its text, unless its only token is empty. -/
theorem parse?_text {tokens : List String} (h : ∀ token ∈ tokens, '/' ∉ token.toList)
    (hne : tokens ≠ [""]) : parse? (text ⟨tokens⟩) = some ⟨tokens⟩ := by
  cases tokens with
  | nil => rfl
  | cons first rest =>
      have hsplit : (Text.splitAt '/'
          (first.toList ++ rest.flatMap fun token => '/' :: token.toList)).map String.ofList
            = first :: rest := by
        rw [splitAt_tokens h, List.map_map]
        simp [Function.comp_def]
      have hslash : first.toList ++ rest.flatMap (fun token => '/' :: token.toList) ≠ [] := by
        intro hnil
        obtain ⟨hf, hr⟩ := List.append_eq_nil_iff.mp hnil
        have hfirst : first = "" := String.toList_eq_nil_iff.mp hf
        cases rest with
        | nil => exact hne (by rw [hfirst])
        | cons second rest => simp at hr
      -- the text is neither empty nor a lone slash, and it starts with one
      rw [parse?, toList_text, List.flatMap_cons, List.cons_append]
      split
      · next heq => cases heq
      · next heq => exact absurd (List.cons.inj heq).2 hslash
      · next heq =>
          rw [← (List.cons.inj heq).2, hsplit]
      · next hno => exact absurd rfl (hno _)

end Pointer

/-! ## Pointers of paths -/

/-- The token of a step. -/
def Step.token : Step → String
  | .member name => Pointer.encodeToken name
  | .item index => toString index

theorem Step.slash_notMem_token (step : Step) : '/' ∉ step.token.toList := by
  cases step with
  | member name => exact Pointer.slash_notMem_encodeToken name
  | item index => exact Pointer.notMem_toString rfl

namespace Pointer

/-- The pointer to what a path leads to from where `p` points. -/
def descend (p : Pointer) (path : Path) : Pointer := ⟨p.tokens ++ path.map Step.token⟩

/-- The pointer of a path from the root. -/
def ofPath (path : Path) : Pointer := root.descend path

@[simp]
theorem descend_nil (p : Pointer) : p.descend [] = p := by
  rw [descend, List.map_nil, List.append_nil]

theorem descend_append (p : Pointer) (a b : Path) :
    p.descend (a ++ b) = (p.descend a).descend b := by
  simp only [descend, List.map_append, List.append_assoc]

theorem descend_member (p : Pointer) (name : String) (rest : Path) :
    p.descend (.member name :: rest) = (p.member name).descend rest := by
  simp only [descend, member, List.map_cons, List.append_assoc, List.singleton_append, Step.token]

theorem descend_item (p : Pointer) (index : Nat) (rest : Path) :
    p.descend (.item index :: rest) = (p.item index).descend rest := by
  simp only [descend, item, List.map_cons, List.append_assoc, List.singleton_append, Step.token]

theorem ofPath_append (a b : Path) : ofPath (a ++ b) = (ofPath a).descend b :=
  descend_append root a b

theorem ofPath_member (path : Path) (name : String) :
    ofPath (path ++ [.member name]) = (ofPath path).member name := by
  rw [ofPath_append, descend_member, descend_nil]

theorem ofPath_item (path : Path) (index : Nat) :
    ofPath (path ++ [.item index]) = (ofPath path).item index := by
  rw [ofPath_append, descend_item, descend_nil]

theorem tokens_ofPath (path : Path) : (ofPath path).tokens = path.map Step.token :=
  List.nil_append _

theorem ofPath_eq (path : Path) : ofPath path = ⟨path.map Step.token⟩ := by
  rw [← tokens_ofPath]

theorem slash_notMem_tokens {path : Path} : ∀ token ∈ path.map Step.token, '/' ∉ token.toList := by
  intro token ht
  obtain ⟨step, _, rfl⟩ := List.mem_map.mp ht
  exact step.slash_notMem_token

/-- The pointer of a path is read back from its text, unless the path is the single empty name. -/
theorem parse?_text_ofPath {path : Path} (hne : path ≠ [.member ""]) :
    parse? (ofPath path).text = some (ofPath path) := by
  -- only the empty name has an empty token
  have hsingle : path.map Step.token ≠ [""] := by
    intro heq
    obtain ⟨step, rfl, htoken⟩ := List.map_eq_singleton_iff.mp heq
    cases step with
    | member name =>
        have hempty : name = "" := encodeToken_injective (htoken.trans rfl)
        exact hne (by rw [hempty])
    | item index =>
        have hdigits : (toString index).toList = [] := congrArg String.toList htoken
        rw [toList_toString] at hdigits
        exact Nat.toDigits_ne_nil hdigits
  rw [ofPath_eq, parse?_text slash_notMem_tokens hsingle]

end Pointer

/-! ## Pointers that tell paths apart -/

namespace Json

/-- Two steps that can be taken from one value are told apart by their tokens. -/
theorem step_eq_of_token_eq {value child child' : Json} {step step' : Step}
    (h : value.step? step = some child) (h' : value.step? step' = some child')
    (ht : step.token = step'.token) : step = step' := by
  cases value with
  | object members =>
      cases step with
      | item index => cases h
      | member name =>
          cases step' with
          | item index => cases h'
          | member name' => rw [Pointer.encodeToken_injective ht]
  | array items =>
      cases step with
      | member name => cases h
      | item index =>
          cases step' with
          | member name => cases h'
          | item index' =>
              have hindex : some index = some index' := by
                rw [← Pointer.index?_toString, ← Pointer.index?_toString,
                  show toString index = toString index' from ht]
              rw [Option.some.inj hindex]
  | _ => cases step <;> cases h

/-- Two paths into one tree are told apart by their pointers. -/
theorem path_eq_of_ofPath_eq {tree node node' : Json} {path path' : Path}
    (h : tree.at? path = some node) (h' : tree.at? path' = some node')
    (hp : Pointer.ofPath path = Pointer.ofPath path') : path = path' := by
  have ht : path.map Step.token = path'.map Step.token := by
    rw [← Pointer.tokens_ofPath, ← Pointer.tokens_ofPath, hp]
  clear hp
  induction path generalizing tree path' with
  | nil => exact (List.map_eq_nil_iff.mp ht.symm).symm
  | cons step rest ih =>
      cases path' with
      | nil => cases ht
      | cons step' rest' =>
          rw [List.map_cons, List.map_cons, List.cons.injEq] at ht
          obtain ⟨child, hc, hn⟩ := Option.bind_eq_some_iff.mp h
          obtain ⟨child', hc', hn'⟩ := Option.bind_eq_some_iff.mp h'
          have hstep := step_eq_of_token_eq hc hc' ht.1
          subst hstep
          cases hc.symm.trans hc'
          rw [ih hn hn' ht.2]

end Json

/-! ## Links -/

/-- A text that starts with `#` is a fragment of the document that holds it. -/
theorem Reference.parse_hash (fragment : String) : parse ("#" ++ fragment) = ⟨"", some fragment⟩ := by
  have hcut : Text.cutAt? '#' ("#" ++ fragment).toList = some ([], fragment.toList) := by
    rw [String.toList_append]
    rfl
  simp only [parse, hcut, String.ofList_toList]

theorem Text.eq_append_of_cutAt? {mark : Char} {text before after : List Char}
    (h : cutAt? mark text = some (before, after)) : text = before ++ mark :: after := by
  induction text generalizing before with
  | nil => cases h
  | cons c rest ih =>
      rw [cutAt?] at h
      split at h
      · next hc =>
          cases h
          rw [hc, List.nil_append]
      · obtain ⟨⟨more, after'⟩, hrest, h⟩ := Option.map_eq_some_iff.mp h
        cases h
        rw [ih hrest, List.cons_append]

/-- A text with an empty document part is empty or starts with `#`. -/
theorem Reference.eq_hash_of_isLocal {text : String} (h : (parse text).isLocal = true) :
    text = "" ∨ ∃ fragment, text = "#" ++ fragment := by
  rw [parse] at h
  split at h
  · next before after hcut =>
      have hbefore : before = [] := String.ofList_eq_empty_iff.mp (String.isEmpty_iff.mp h)
      refine .inr ⟨String.ofList after, String.toList_injective ?_⟩
      rw [Text.eq_append_of_cutAt? hcut, hbefore, String.toList_append]
      exact congrArg ('#' :: ·) (String.toList_ofList).symm
  · exact .inl (String.isEmpty_iff.mp h)

theorem Json.locateLocal?_hash (tree : Json) (fragment : String) :
    tree.locateLocal? ("#" ++ fragment) = tree.locate? fragment := by
  rw [locateLocal?, Reference.parse_hash]
  rfl

end OpenApi
