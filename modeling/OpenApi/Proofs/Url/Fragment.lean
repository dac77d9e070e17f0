import Mathlib.Data.List.DropRight
import OpenApi.Bundle.Bundler
import OpenApi.Proofs.Pointer.RoundTrip

/-!
# References by fragment alone

A reference text that starts with `#` denotes the document that holds it, and its fragment is what
follows, freed of blanks and percent-encoded. A front of plain characters passes through both
unchanged, and neither makes a slash out of anything else: `join_hash`.
-/

namespace OpenApi

namespace Url

/-- A character that reading a fragment leaves alone: visible, ASCII, and not to be escaped. -/
def isPlain (c : Char) : Bool := 0x20 < c.toNat && c.toNat ≤ 0x7F && !fragmentSet c

theorem dropWhile_eq_self {p : Char → Bool} {text : List Char} (h : ∀ c ∈ text, p c = false) :
    text.dropWhile p = text := by
  cases text with
  | nil => rfl
  | cons c rest => rw [List.dropWhile_cons, h c List.mem_cons_self]; rfl

/-- Trimming at the end stops at the last character that stays. -/
theorem trimEnd_append {p : Char → Bool} {front : List Char} (h : ∀ c ∈ front, p c = false)
    (back : List Char) :
    ((front ++ back).reverse.dropWhile p).reverse
      = front ++ (back.reverse.dropWhile p).reverse := by
  rw [List.reverse_append, List.dropWhile_append]
  split
  · next hempty =>
      rw [dropWhile_eq_self fun c hc => h c (List.mem_reverse.mp hc), List.isEmpty_iff.mp hempty]
      rw [List.reverse_reverse, List.reverse_nil, List.append_nil]
  · rw [List.reverse_append, List.reverse_reverse]

/-- Cleaning leaves a front of visible characters and takes some characters away behind it. -/
theorem exists_clean_append {front : List Char} (back : List Char)
    (h : ∀ c ∈ front, 0x20 < c.toNat) (hne : front ≠ []) :
    ∃ back', back' ⊆ back ∧ clean (String.ofList (front ++ back)) = front ++ back' := by
  have houter : ∀ c ∈ front, decide (c.toNat ≤ 0x20) = false := by
    intro c hc
    have := h c hc
    simpa using this
  have hstart : (front ++ back).dropWhile (fun c => decide (c.toNat ≤ 0x20)) = front ++ back := by
    cases front with
    | nil => exact absurd rfl hne
    | cons c rest =>
        rw [List.cons_append, List.dropWhile_cons, houter c List.mem_cons_self]
        rfl
  have hfilter : ∀ c ∈ front, decide (¬(c = '\t' ∨ c = '\n' ∨ c = '\r')) = true := by
    intro c hc
    have hlt := h c hc
    rw [decide_eq_true_iff]
    rintro (rfl | rfl | rfl) <;> exact absurd hlt (by decide)
  refine ⟨((back.reverse.dropWhile (fun c => decide (c.toNat ≤ 0x20))).reverse).filter
    (fun c => decide (¬(c = '\t' ∨ c = '\n' ∨ c = '\r'))), ?_, ?_⟩
  · intro c hc
    have hmem := List.mem_reverse.mp (List.mem_filter.mp hc).1
    exact List.mem_reverse.mp ((List.dropWhile_sublist _).subset hmem)
  · rw [clean, String.toList_ofList, hstart, trimEnd_append houter, List.filter_append,
      List.filter_eq_self.mpr hfilter]

/-! ## Encoding -/

theorem notMem_percentEscape {c : Char} (hc : c ≠ '%') (hdigit : ∀ n < 16, Text.upperHexDigit n ≠ c)
    (b : UInt8) : c ∉ Text.percentEscape b := by
  have hb : b.toNat < 256 := b.toNat_lt
  unfold Text.percentEscape
  simp only [List.mem_cons, List.not_mem_nil, or_false, not_or]
  exact ⟨hc, (hdigit _ (by omega)).symm, (hdigit _ (by omega)).symm⟩

theorem slash_notMem_percentEncode {special : Char → Bool} {text : List Char} (h : '/' ∉ text) :
    '/' ∉ Text.percentEncode special text := by
  intro hm
  obtain ⟨c, hc, hm⟩ := List.mem_flatMap.mp hm
  split at hm
  · obtain ⟨b, _, hm⟩ := List.mem_flatMap.mp hm
    exact notMem_percentEscape (by decide) (by decide) b hm
  · rw [List.mem_singleton.mp hm] at h
    exact h hc

theorem percentEncode_append {front : List Char} (h : ∀ c ∈ front, isPlain c = true)
    (back : List Char) :
    Text.percentEncode fragmentSet (front ++ back)
      = front ++ Text.percentEncode fragmentSet back := by
  induction front with
  | nil => rfl
  | cons c rest ih =>
      have hc := h c List.mem_cons_self
      rw [isPlain, Bool.and_eq_true, Bool.and_eq_true, decide_eq_true_iff, decide_eq_true_iff,
        Bool.not_eq_true'] at hc
      have hkeep : ¬(0x7F < c.toNat ∨ fragmentSet c = true) := by
        rintro (hlt | hset)
        · omega
        · rw [hc.2] at hset
          simp at hset
      rw [List.cons_append, Text.percentEncode, List.flatMap_cons, if_neg hkeep,
        ← Text.percentEncode, ih fun c hm => h c (List.mem_cons_of_mem _ hm)]
      rfl

/-! ## Joining -/

/-- A text that starts with `#` once it is cleaned only changes the fragment of the base. -/
theorem join_of_clean (base : Url) {text : String} {rest : List Char}
    (h : clean text = '#' :: rest) :
    base.join text = .ok { base with fragment := some (encode fragmentSet rest) } := by
  have hscheme : scheme? ('#' :: rest) = none := rfl
  rw [join, read, h]
  dsimp only
  rw [hscheme]
  rfl

theorem visible_of_isPlain {front : List Char} (h : ∀ c ∈ front, isPlain c = true) :
    ∀ c ∈ '#' :: front, 0x20 < c.toNat := by
  intro c hc
  rcases List.mem_cons.mp hc with rfl | hc
  · decide
  · have := h c hc
    rw [isPlain, Bool.and_eq_true, Bool.and_eq_true, decide_eq_true_iff] at this
    exact this.1.1

/-- A reference by fragment stays in the document of its base, and a plain front of the fragment
stays as it is. -/
theorem join_hash (base : Url) {front back : List Char} (h : ∀ c ∈ front, isPlain c = true)
    (hslash : '/' ∉ back) :
    ∃ back', '/' ∉ back' ∧ base.join (String.ofList ('#' :: front ++ back))
      = .ok { base with fragment := some (String.ofList (front ++ back')) } := by
  obtain ⟨back', hsub, hclean⟩ := exists_clean_append back (visible_of_isPlain h) (by simp)
  refine ⟨Text.percentEncode fragmentSet back',
    slash_notMem_percentEncode fun hm => hslash (hsub hm), ?_⟩
  rw [join_of_clean base hclean]
  show Except.ok { base with fragment := some (encode fragmentSet (front ++ back')) } = _
  rw [encode, percentEncode_append h]

/-- A plain fragment takes the place of the fragment of the base as it is written. -/
theorem join_plain (base : Url) {fragment : List Char} (h : ∀ c ∈ fragment, isPlain c = true) :
    base.join (String.ofList ('#' :: fragment))
      = .ok { base with fragment := some (String.ofList fragment) } := by
  obtain ⟨back, hsub, hclean⟩ := exists_clean_append [] (visible_of_isPlain h) (by simp)
  rw [List.append_nil, List.eq_nil_of_subset_nil hsub, List.append_nil] at hclean
  rw [join_of_clean base hclean, encode, ← List.append_nil fragment, percentEncode_append h]
  rfl

/-- A reference text with an empty document part stays in the document of its base. -/
theorem document_of_join_local {base target : Url} {text : String}
    (hlocal : (Reference.parse text).isLocal = true) (h : base.join text = .ok target) :
    target.document = base.document := by
  rcases Reference.eq_hash_of_isLocal hlocal with rfl | ⟨fragment, rfl⟩
  · -- the empty text is the base without its fragment, if the base has segments
    have hclean : clean "" = [] := rfl
    have hscheme : scheme? [] = none := rfl
    rw [join, read, hclean] at h
    dsimp only at h
    rw [hscheme] at h
    dsimp only at h
    rw [if_neg (by simp)] at h
    split at h
    · cases h
    · split at h <;> cases h <;> rfl
  · obtain ⟨back, _, hclean⟩ := exists_clean_append fragment.toList
      (@visible_of_isPlain [] (List.forall_mem_nil _)) (by simp)
    have htext : String.ofList (['#'] ++ fragment.toList) = "#" ++ fragment :=
      String.toList_injective (by rw [String.toList_ofList, String.toList_append]; rfl)
    rw [htext] at hclean
    rw [join_of_clean base hclean] at h
    cases h
    rfl

theorem trimFlat_trimFlat (query : Option String) (path : Path) :
    trimFlat query (trimFlat query path) = trimFlat query path := by
  cases path with
  | flat text =>
      cases query with
      | none =>
          simp only [trimFlat, Option.isNone_none, if_true, String.toList_ofList,
            List.reverse_reverse, List.dropWhile_idempotent]
      | some query => rfl
  | segments items => rfl

/-- The document of a URL is its own document. -/
theorem document_document (url : Url) : url.document.document = url.document := by
  simp only [document, trimFlat_trimFlat]

end Url

end OpenApi
