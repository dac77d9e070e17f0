import OpenApi.Bundle.Loader
import OpenApi.Proofs.Url.Fragment

/-!
# Documents are their own documents

The URL of a document is found by leaving out a fragment, and a flat path then loses the blanks at
its end. Whoever names a document by a URL without fragment therefore still has to know that there
are no such blanks. Reading a text takes care of it: the text is freed of blanks at its end first,
and what a fragment or a query could have kept there is not the end of the path. So
`document_of_identify`: an identifier that denotes no fragment denotes a document.

A fragment is always that of the text, never that of a base, so only an identifier with a `#` can
denote one; and an absolute file name denotes none even then, since it escapes the `#`.
-/

namespace OpenApi

namespace Url

/-- Leaving out the fragment changes nothing else. -/
def IsBare (url : Url) : Prop := trimFlat url.query url.path = url.path

/-- The path is a list of segments. -/
def HasSegments (url : Url) : Prop := ∃ items, url.path = .segments items

theorem HasSegments.isBare {url : Url} (h : url.HasSegments) : url.IsBare := by
  obtain ⟨items, hpath⟩ := h
  rw [IsBare, hpath]
  rfl

theorem IsBare.document_eq {url : Url} (h : url.IsBare) (hf : url.fragment = none) :
    url.document = url := by
  rw [document, h, ← hf]

/-! ## Texts that do not end in a blank -/

/-- The last character, if there is one, is visible. -/
def EndsVisibly (text : List Char) : Prop := ∀ c ∈ text.getLast?, 0x20 < c.toNat

theorem EndsVisibly.of_append {front back : List Char} (h : EndsVisibly (front ++ back)) :
    EndsVisibly back := by
  intro c hc
  apply h c
  rw [List.getLast?_append, Option.mem_def.mp hc]
  rfl

theorem endsVisibly_clean (text : String) : EndsVisibly (clean text) := by
  intro c hc
  -- the last character that is kept is the last one before tabs and line breaks are taken out
  have hblank : ∀ trimmed : List Char, EndsVisibly trimmed →
      EndsVisibly (trimmed.filter fun c => ¬(c = '\t' ∨ c = '\n' ∨ c = '\r')) := by
    intro trimmed htrimmed d hd
    rcases List.eq_nil_or_concat trimmed with rfl | ⟨init, last, rfl⟩
    · cases hd
    · rw [List.concat_eq_append] at htrimmed hd
      have hlast : 0x20 < last.toNat := htrimmed last (by simp)
      have hkept : ¬(last = '\t' ∨ last = '\n' ∨ last = '\r') := by
        rintro (rfl | rfl | rfl) <;> exact absurd hlast (by decide)
      rw [List.filter_append, List.filter_cons_of_pos (by simpa using hkept), List.filter_nil,
        List.getLast?_concat] at hd
      cases hd
      exact hlast
  refine hblank _ ?_ c hc
  intro d hd
  rw [List.getLast?_reverse] at hd
  have hnot := List.head?_dropWhile_not (fun c : Char => decide (c.toNat ≤ 0x20))
    (text.toList.dropWhile fun c => decide (c.toNat ≤ 0x20)).reverse
  rw [Option.mem_def.mp hd] at hnot
  simpa using hnot

/-- Encoding puts no blank at the end. -/
theorem getLast?_percentEncode_ne {special : Char → Bool} {text : List Char}
    (h : EndsVisibly text) : (Text.percentEncode special text).getLast? ≠ some ' ' := by
  rcases List.eq_nil_or_concat text with rfl | ⟨init, last, rfl⟩
  · simp [Text.percentEncode]
  · rw [List.concat_eq_append] at h ⊢
    have hlast : 0x20 < last.toNat := h last (by simp)
    rw [Text.percentEncode, List.flatMap_append, List.flatMap_cons, List.flatMap_nil,
      List.append_nil, List.getLast?_append]
    split
    · -- the escapes of a character hold no blank, and there is at least one
      have hblank : ' ' ∉ (String.utf8EncodeChar last).flatMap Text.percentEscape := by
        intro hm
        obtain ⟨b, _, hm⟩ := List.mem_flatMap.mp hm
        exact notMem_percentEscape (by decide) (by decide) b hm
      cases hl : ((String.utf8EncodeChar last).flatMap Text.percentEscape).getLast? with
      | none =>
          have hnil := List.getLast?_eq_none_iff.mp hl
          have hlength := String.length_utf8EncodeChar last
          have hpos := Char.utf8Size_pos last
          cases hbytes : String.utf8EncodeChar last with
          | nil =>
              rw [hbytes] at hlength
              simp at hlength
              omega
          | cons b rest =>
              rw [hbytes] at hnil
              simp [Text.percentEscape] at hnil
      | some c =>
          rw [Option.some_or]
          intro heq
          cases heq
          exact hblank (List.mem_of_getLast? hl)
    · rw [List.getLast?_singleton, Option.some_or]
      intro heq
      cases heq
      exact absurd hlast (by decide)

theorem trimFlat_encode {special : Char → Bool} {text : List Char} (h : EndsVisibly text)
    (query : Option String) :
    trimFlat query (.flat (encode special text)) = .flat (encode special text) := by
  have hreverse : ((Text.percentEncode special text).reverse.dropWhile fun c => decide (c = ' '))
      = (Text.percentEncode special text).reverse := by
    have hhead := @getLast?_percentEncode_ne special _ h
    rw [← List.head?_reverse] at hhead
    cases hl : (Text.percentEncode special text).reverse with
    | nil => rfl
    | cons c rest =>
        rw [hl, List.head?_cons] at hhead
        have hc : decide (c = ' ') = false := by simpa using hhead
        rw [List.dropWhile_cons, hc]
        rfl
  rw [trimFlat]
  split
  · rw [encode, String.toList_ofList, hreverse, List.reverse_reverse]
  · rfl

/-! ## Reading -/

theorem hasSegments_pathAfterHost (kind : Kind) (text : List Char) :
    ∃ items, pathAfterHost kind text = .segments items := by
  unfold pathAfterHost
  split
  · split <;> exact ⟨_, rfl⟩
  · split <;> exact ⟨_, rfl⟩

/-- The path is a list of segments, and the fragment is that of a cut text. -/
structure ReadFrom (cut : Cut) (url : Url) : Prop where
  segments : url.HasSegments
  fragment : url.fragment = cut.fragmentText

section

variable {cut : Cut} {url : Url}

theorem readFrom_afterSlashes {scheme : String} {kind : Kind} {text : List Char}
    (h : afterSlashes scheme kind text cut = .ok url) : url.ReadFrom cut := by
  unfold afterSlashes at h
  dsimp only at h
  cases ha : readAuthority scheme kind (text.takeWhile (!kind.isSlash ·))
      (!(text.dropWhile (!kind.isSlash ·)).isEmpty || cut.query.isSome || cut.fragment.isSome) with
  | error fault =>
      rw [ha] at h
      cases h
  | ok authority =>
      rw [ha] at h
      cases h
      exact ⟨hasSegments_pathAfterHost kind _, rfl⟩

theorem readFrom_afterFileSlashes {text : List Char} (h : afterFileSlashes text cut = .ok url) :
    url.ReadFrom cut := by
  unfold afterFileSlashes at h
  dsimp only at h
  split at h
  · cases h
    exact ⟨⟨_, rfl⟩, rfl⟩
  · split at h
    · cases h
      exact ⟨⟨_, rfl⟩, rfl⟩
    · cases hhost : specialHost (text.takeWhile (!Kind.file.isSlash ·)) with
      | error fault =>
          rw [hhost] at h
          cases h
      | ok host =>
          rw [hhost] at h
          change (if _ then Except.ok _ else Except.ok _) = _ at h
          split at h <;>
          · cases h
            exact ⟨hasSegments_pathAfterHost .file _, rfl⟩

theorem readFrom_rooted (base : Option Url) (rest : List Char) (query : Option String) :
    (readFile.rooted base rest query cut.fragmentText).ReadFrom cut := by
  unfold readFile.rooted
  split
  · exact ⟨⟨_, rfl⟩, rfl⟩
  · split
    · dsimp only
      split <;> exact ⟨⟨_, rfl⟩, rfl⟩
    · exact ⟨⟨_, rfl⟩, rfl⟩

theorem readFrom_readFile {base : Option Url} (hb : ∀ b ∈ base, b.HasSegments)
    (h : readFile base cut = .ok url) : url.ReadFrom cut := by
  unfold readFile at h
  dsimp only at h
  split at h
  · split at h
    · next b =>
        cases h
        exact ⟨hb b rfl, rfl⟩
    · cases h
      exact ⟨⟨_, rfl⟩, rfl⟩
  · split at h
    · split at h
      · split at h
        · exact readFrom_afterFileSlashes h
        · cases h
          exact readFrom_rooted _ _ _
      · cases h
        exact readFrom_rooted _ _ _
    · split at h
      · split at h <;>
        · cases h
          exact ⟨⟨_, rfl⟩, rfl⟩
      · cases h
        exact ⟨⟨_, rfl⟩, rfl⟩

theorem readFrom_readRelative {base : Url} (hb : base.HasSegments)
    (h : readRelative base cut = .ok url) : url.ReadFrom cut := by
  unfold readRelative at h
  dsimp only at h
  split at h
  · cases h
    exact ⟨hb, rfl⟩
  · split at h
    · split at h
      · split at h
        · exact readFrom_afterSlashes h
        · cases h
          exact ⟨⟨_, rfl⟩, rfl⟩
      · cases h
        exact ⟨⟨_, rfl⟩, rfl⟩
    · cases h
      exact ⟨⟨_, rfl⟩, rfl⟩

end

/-- A text that is cut nowhere is all path. -/
theorem Cut.body_eq {text : List Char} (hq : (Cut.of text).query = none)
    (hf : (Cut.of text).fragment = none) : (Cut.of text).body = text := by
  cases hhash : Text.cutAt? '#' text with
  | some cut =>
      unfold Cut.of at hf
      rw [hhash] at hf
      dsimp only at hf
      split at hf <;> cases hf
  | none =>
      cases hmark : Text.cutAt? '?' text with
      | some cut =>
          unfold Cut.of at hq
          rw [hhash] at hq
          dsimp only at hq
          rw [hmark] at hq
          cases hq
      | none =>
          unfold Cut.of
          rw [hhash]
          dsimp only
          rw [hmark]

/-- After a scheme, only one without slashes that is not special has a flat path. -/
theorem readWithScheme_eq_ok {base : Option Url} (hb : ∀ b ∈ base, b.HasSegments)
    {scheme : String} {text : List Char} {url : Url} (h : readWithScheme base scheme text = .ok url) :
    url.ReadFrom (Cut.of text) ∨
      url = ⟨scheme, none, .flat (encode isControl (Cut.of text).body),
        (Cut.of text).queryText .other, (Cut.of text).fragmentText⟩ := by
  unfold readWithScheme at h
  dsimp only at h
  split at h
  · have hfilter : ∀ b ∈ base.filter (·.scheme = "file"), b.HasSegments :=
      fun b hm => hb b (Option.filter_eq_some_iff.mp hm).1
    exact .inl (readFrom_readFile hfilter h)
  · split at h
    · next b =>
        split at h
        · exact .inl (readFrom_readRelative (hb b rfl) h)
        · exact .inl (readFrom_afterSlashes h)
    · exact .inl (readFrom_afterSlashes h)
  · split at h
    · exact .inl (readFrom_afterSlashes h)
    · cases h
      exact .inl ⟨⟨_, rfl⟩, rfl⟩
    · cases h
      exact .inr rfl

theorem isBare_readWithScheme {base : Option Url} (hb : ∀ b ∈ base, b.HasSegments)
    {scheme : String} {text : List Char} (ht : EndsVisibly text) {url : Url}
    (h : readWithScheme base scheme text = .ok url) (hf : url.fragment = none) : url.IsBare := by
  rcases readWithScheme_eq_ok hb h with hread | rfl
  · exact hread.segments.isBare
  · -- a flat path: without query and fragment it is all of the text
    cases hq : (Cut.of text).query with
    | some query =>
        rw [IsBare, Cut.queryText, hq]
        rfl
    | none =>
        have hfragment : (Cut.of text).fragment = none := by simpa [Cut.fragmentText] using hf
        rw [IsBare, Cut.body_eq hq hfragment]
        exact trimFlat_encode ht _

/-- A scheme is cut off at the front. -/
theorem schemeRest_eq_some {read text rest : List Char} {scheme : String}
    (h : schemeRest read text = some (scheme, rest)) : ∃ front, text = front ++ rest := by
  fun_induction schemeRest read text with
  | case1 => cases h
  | case2 read rest' =>
      cases h
      exact ⟨[':'], rfl⟩
  | case3 read c more _ _ ih =>
      obtain ⟨front, rfl⟩ := ih h
      exact ⟨c :: front, rfl⟩
  | case4 => cases h

theorem scheme?_eq_some {text rest : List Char} {scheme : String}
    (h : scheme? text = some (scheme, rest)) : ∃ front, text = front ++ rest := by
  unfold scheme? at h
  split at h
  · split at h
    · exact schemeRest_eq_some h
    · cases h
  · cases h

/-- What is read without a fragment, and not beside a flat path, has no blanks at the end. -/
theorem isBare_of_read {base : Option Url} (hb : ∀ b ∈ base, b.HasSegments) {text : String}
    {url : Url} (h : read base text = .ok url) (hf : url.fragment = none) : url.IsBare := by
  unfold read at h
  dsimp only at h
  split at h
  · next scheme rest hscheme =>
      obtain ⟨front, heq⟩ := scheme?_eq_some hscheme
      have hvisible := endsVisibly_clean text
      rw [heq] at hvisible
      exact isBare_readWithScheme hb hvisible.of_append h hf
  · split at h
    · cases h
    · next b =>
        split at h
        · cases h
          exact HasSegments.isBare (hb b rfl)
        · split at h
          · cases h
          · split at h
            · exact (readFrom_readFile hb h).segments.isBare
            · exact (readFrom_readRelative (hb b rfl) h).segments.isBare

/-! ## Where fragments come from -/

theorem fragment_readWithScheme {base : Option Url} (hb : ∀ b ∈ base, b.HasSegments)
    {scheme : String} {text : List Char} {url : Url} (h : readWithScheme base scheme text = .ok url) :
    url.fragment = (Cut.of text).fragmentText := by
  rcases readWithScheme_eq_ok hb h with hread | rfl
  · exact hread.fragment
  · rfl

theorem fragmentText_of_notMem {text : List Char} (h : '#' ∉ text) :
    (Cut.of text).fragmentText = none := by
  cases hhash : Text.cutAt? '#' text with
  | some cut =>
      rw [Text.eq_append_of_cutAt? hhash] at h
      exact absurd (List.mem_append_right _ List.mem_cons_self) h
  | none =>
      unfold Cut.of
      rw [hhash]
      dsimp only
      split <;> rfl

theorem mem_toList_of_mem_clean {text : String} {c : Char} (h : c ∈ clean text) :
    c ∈ text.toList := by
  unfold clean at h
  have hkept := List.mem_of_mem_filter h
  rw [List.mem_reverse] at hkept
  have hreversed := (List.dropWhile_suffix _).mem hkept
  rw [List.mem_reverse] at hreversed
  exact (List.dropWhile_suffix _).mem hreversed

/-- A text without a `#` denotes no fragment. -/
theorem fragment_read {base : Option Url} (hb : ∀ b ∈ base, b.HasSegments) {text : String}
    {url : Url} (ht : '#' ∉ text.toList) (h : read base text = .ok url) : url.fragment = none := by
  have hclean : '#' ∉ clean text := fun hm => ht (mem_toList_of_mem_clean hm)
  unfold read at h
  dsimp only at h
  split at h
  · next scheme rest hscheme =>
      obtain ⟨front, heq⟩ := scheme?_eq_some hscheme
      rw [fragment_readWithScheme hb h]
      exact fragmentText_of_notMem fun hm => hclean (heq ▸ List.mem_append_right _ hm)
  · split at h
    · cases h
    · next b =>
        split at h
        · cases h
          exact fragmentText_of_notMem hclean
        · split at h
          · cases h
          · split at h
            · rw [(readFrom_readFile hb h).fragment]
              exact fragmentText_of_notMem hclean
            · rw [(readFrom_readRelative (hb b rfl) h).fragment]
              exact fragmentText_of_notMem hclean

end Url

namespace Loader

theorem hasSegments_relativeBase : ∀ base ∈ some relativeBase, base.HasSegments := by
  rintro base ⟨⟩
  exact ⟨_, rfl⟩

/-- The three kinds of identifiers: URLs, absolute file names and relative names. -/
theorem identify_eq_ok {uri : String} {url : Url} (h : identify uri = .ok url) :
    Url.parse uri = .ok url ∨ Url.ofFile? uri = some url ∨
      uri.toList.head? ≠ some '/' ∧ relativeBase.join uri = .ok url := by
  unfold identify at h
  split at h
  · next found hparse =>
      cases h
      exact .inl hparse
  · split at h
    · split at h
      · next found hfile =>
          cases h
          exact .inr (.inl hfile)
      · cases h
    · next hslash =>
        split at h
        · next found hjoin =>
            cases h
            exact .inr (.inr ⟨hslash, hjoin⟩)
        · cases h

/-- The URL of a file name has no fragment. -/
theorem ofFile?_eq_some {path : String} {url : Url} (h : Url.ofFile? path = some url) :
    url.HasSegments ∧ url.fragment = none := by
  unfold Url.ofFile? at h
  split at h
  · cases h
    exact ⟨⟨_, rfl⟩, rfl⟩
  · cases h

/-- An identifier that denotes no fragment denotes a document. -/
theorem document_of_identify {uri : String} {url : Url} (h : identify uri = .ok url)
    (hf : url.fragment = none) : url.document = url := by
  refine Url.IsBare.document_eq ?_ hf
  rcases identify_eq_ok h with hparse | hfile | ⟨_, hjoin⟩
  · exact Url.isBare_of_read (fun b hm => by cases hm) hparse hf
  · exact (ofFile?_eq_some hfile).1.isBare
  · exact Url.isBare_of_read hasSegments_relativeBase hjoin hf

/-- An absolute file name is no URL by itself. -/
theorem parse_of_slash {uri : String} (hs : uri.toList.head? = some '/') :
    Url.parse uri = .error .relativeWithoutBase := by
  cases hl : uri.toList with
  | nil =>
      rw [hl] at hs
      cases hs
  | cons c rest =>
      rw [hl, List.head?_cons, Option.some.injEq] at hs
      have hvisible : ∀ c ∈ ['/'], 0x20 < c.toNat := List.forall_mem_singleton.mpr (by decide)
      obtain ⟨back, _, hclean⟩ := Url.exists_clean_append rest hvisible (by decide)
      have huri : String.ofList (['/'] ++ rest) = uri := by
        rw [List.singleton_append, ← hs, ← hl, String.ofList_toList]
      rw [huri] at hclean
      unfold Url.parse Url.read
      dsimp only
      rw [hclean]
      rfl

/-- Only an identifier with a `#` that is no absolute file name can denote a fragment. -/
theorem fragment_of_identify {uri : String} {url : Url}
    (h : '#' ∉ uri.toList ∨ uri.toList.head? = some '/') (hi : identify uri = .ok url) :
    url.fragment = none := by
  rcases identify_eq_ok hi with hparse | hfile | ⟨hslash, hjoin⟩
  · rcases h with hmark | hslash
    · exact Url.fragment_read (fun b hm => by cases hm) hmark hparse
    · rw [parse_of_slash hslash] at hparse
      cases hparse
  · exact (ofFile?_eq_some hfile).2
  · exact Url.fragment_read hasSegments_relativeBase (h.resolve_right hslash) hjoin

end Loader

end OpenApi
