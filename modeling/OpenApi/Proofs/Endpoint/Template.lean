import OpenApi.Proofs.Endpoint.Naming

/-!
# Names derived from path templates

A path template is a list of segments, each a phrase of words, bare or in braces. The derived name is
found in two passes over the whole path, as `Method.fallbackName_eq` has them. The first raises the start
of every word that a slash or an underscore stands before, also inside braces, where the slash is kept.
The second reads what the first one wrote and replaces braced phrases. `fallbackName_template` says what
comes out, segment by segment.

No pass ever looks beyond a segment: a raised start is one character after its mark, and a word holds
neither marks nor braces. So each pass is one lemma for a piece of text with anything after it, and
the theorem is two inductions over the segments.
-/

namespace OpenApi

/-! ## Templates -/

/-- A word: ASCII letters and digits, at least one. -/
structure Word where
  first : Char
  rest : List Char
  isAlphanum : ∀ c ∈ first :: rest, c.isAlphanum = true

/-- The characters of a word. -/
def Word.chars (word : Word) : List Char := word.first :: word.rest

/-- A word with its first character in upper case, and the others as they are. -/
def Word.raised (word : Word) : List Char := word.first.toUpper :: word.rest

/-- Words, at least one. -/
structure Phrase where
  first : Word
  rest : List Word

namespace Phrase

/-- The words of a phrase, in order. -/
def words (phrase : Phrase) : List Word := phrase.first :: phrase.rest

/-- The text of a phrase: its words with underscores between them. -/
def text (phrase : Phrase) : List Char :=
  phrase.first.chars ++ phrase.rest.flatMap fun word => '_' :: word.chars

/-- The words of a phrase without anything between them. -/
def joined (phrase : Phrase) : List Char := phrase.words.flatMap Word.chars

/-- The words of a phrase, each with its first character in upper case. -/
def raised (phrase : Phrase) : List Char := phrase.words.flatMap Word.raised

end Phrase

/-- A segment of a path template: a phrase, or a parameter named by a phrase in braces. -/
inductive Segment where
  | literal (phrase : Phrase)
  | parameter (phrase : Phrase)

namespace Segment

/-- The text of a segment. -/
def text : Segment → List Char
  | literal phrase => '/' :: phrase.text
  | parameter phrase => '/' :: '{' :: (phrase.text ++ ['}'])

/-- What a segment adds to a derived name: the words with their starts raised, or the whole name of a
parameter with its first character in upper case and all others in lower case. -/
def name : Segment → List Char
  | literal phrase => phrase.raised
  | parameter phrase => phrase.first.first.toUpper :: phrase.joined.tail.map Char.toLower

end Segment

/-- The path that segments make up. -/
def templatePath (segments : List Segment) : String := String.ofList (segments.flatMap Segment.text)

/-! ## Letters and digits -/

section

variable {c : Char}

theorem toNat_lt_of_isAlphanum (h : c.isAlphanum = true) : c.toNat < 0x80 := by
  simp only [Char.isAlphanum, Char.isAlpha, Char.isUpper, Char.isLower, Char.isDigit,
    Bool.or_eq_true, Bool.and_eq_true, decide_eq_true_eq, ge_iff_le, UInt32.le_iff_toNat_le] at h
  have hlast : 'z'.val.toNat < 0x80 ∧ 'Z'.val.toNat < 0x80 ∧ '9'.val.toNat < 0x80 := by decide
  show c.val.toNat < 0x80
  omega

/-- A letter or digit is none of the characters that the passes look for. -/
theorem ne_of_isAlphanum (h : c.isAlphanum = true) {mark : Char} (hm : mark.isAlphanum = false) :
    c ≠ mark := by
  rintro rfl
  rw [hm] at h
  cases h

theorem isAlphanum_toUpper (h : c.isAlphanum = true) : c.toUpper.isAlphanum = true := by
  by_cases hl : c.isLower = true
  · rw [Char.isAlphanum, Char.isAlpha_toUpper_eq_isAlpha, Char.isAlpha, hl, Bool.or_true,
      Bool.true_or]
  · rwa [Char.toUpper_eq_of_not_isLower hl]

theorem isAlphanum_toLower (h : c.isAlphanum = true) : c.toLower.isAlphanum = true := by
  by_cases hu : c.isUpper = true
  · rw [Char.isAlphanum, Char.isAlpha_toLower_eq_isAlpha, Char.isAlpha, hu, Bool.true_or,
      Bool.true_or]
  · rwa [Char.toLower_eq_of_not_isUpper hu]

theorem toUpper_of_isAlphanum (h : c.isAlphanum = true) : Text.toUpper c = [c.toUpper] := by
  rw [Text.toUpper, if_pos (toNat_lt_of_isAlphanum h)]

theorem toLower_of_isAlphanum (h : c.isAlphanum = true) : Text.toLower c = [c.toLower] := by
  rw [Text.toLower, if_pos (toNat_lt_of_isAlphanum h)]

end

namespace Word

variable (word : Word)

theorem isAlphanum_of_mem_chars {c : Char} (h : c ∈ word.chars) : c.isAlphanum = true :=
  word.isAlphanum c h

theorem isAlphanum_of_mem_raised {c : Char} (h : c ∈ word.raised) : c.isAlphanum = true := by
  rcases List.mem_cons.mp h with rfl | h
  · exact isAlphanum_toUpper (word.isAlphanum _ List.mem_cons_self)
  · exact word.isAlphanum c (List.mem_cons_of_mem _ h)

theorem map_toLower_raised : word.raised.map Char.toLower = word.chars.map Char.toLower := by
  rw [raised, chars, List.map_cons, List.map_cons, Char.toLower_toUpper_eq_toLower]

end Word

/-! ## The first pass -/

namespace Endpoint.Naming

theorem isMark_of_isAlphanum {c : Char} (h : c.isAlphanum = true) : isMark c = false := by
  rw [isMark, decide_eq_false (ne_of_isAlphanum h (by decide)),
    decide_eq_false (ne_of_isAlphanum h (by decide)), Bool.or_false]

/-- What holds no mark stays and is passed over. -/
theorem raiseStarts_append {text : List Char} (h : ∀ c ∈ text, isMark c = false)
    (rest : List Char) : raiseStarts (text ++ rest) = text ++ raiseStarts rest := by
  induction text with
  | nil => rfl
  | cons c text ih =>
      have hc : ¬isMark c = true := by
        rw [h c List.mem_cons_self]
        exact Bool.false_ne_true
      rw [List.cons_append, List.cons_append, ← ih fun d hd => h d (List.mem_cons_of_mem _ hd)]
      cases text ++ rest with
      | nil => rfl
      | cons d more => rw [raiseStarts, if_neg fun hm => hc hm.1]

/-- A mark before a word is dropped, and the start of the word is raised. -/
theorem raiseStarts_word {mark : Char} (hm : isMark mark = true) (word : Word)
    (rest : List Char) :
    raiseStarts (mark :: (word.chars ++ rest)) = word.raised ++ raiseStarts rest := by
  have hfirst := word.isAlphanum _ List.mem_cons_self
  have hword : isWord word.first = true := by rw [isWord, hfirst, Bool.true_or]
  have hrest : ∀ c ∈ word.rest, isMark c = false := fun c hc =>
    isMark_of_isAlphanum (word.isAlphanum c (List.mem_cons_of_mem _ hc))
  rw [Word.chars, Word.raised, List.cons_append, raiseStarts, if_pos ⟨hm, hword⟩,
    raiseStarts_append hrest, toUpper_of_isAlphanum hfirst, List.singleton_append, List.cons_append]

theorem raiseStarts_words (words : List Word) (rest : List Char) :
    raiseStarts ((words.flatMap fun word => '_' :: word.chars) ++ rest)
      = words.flatMap Word.raised ++ raiseStarts rest := by
  induction words with
  | nil => rfl
  | cons word words ih =>
      rw [List.flatMap_cons, List.flatMap_cons, List.append_assoc, List.append_assoc, ← ih]
      exact raiseStarts_word rfl word _

end Endpoint.Naming

/-- What the first pass makes of a segment: in braces the first word has no mark before it. -/
def Segment.raised : Segment → List Char
  | literal phrase => phrase.raised
  | parameter phrase =>
    '/' :: '{' :: (phrase.first.chars ++ phrase.rest.flatMap Word.raised ++ ['}'])

namespace Endpoint.Naming

theorem raiseStarts_segment (segment : Segment) (rest : List Char) :
    raiseStarts (segment.text ++ rest) = segment.raised ++ raiseStarts rest := by
  cases segment with
  | literal phrase =>
      rw [Segment.text, Segment.raised, Phrase.text, Phrase.raised, Phrase.words, List.flatMap_cons,
        List.append_assoc, ← raiseStarts_words, ← @raiseStarts_word '/' rfl, List.cons_append,
        List.append_assoc]
  | parameter phrase =>
      have hfirst : ∀ c ∈ '{' :: phrase.first.chars, isMark c = false := by
        intro c hc
        rcases List.mem_cons.mp hc with rfl | hc
        · rfl
        · exact isMark_of_isAlphanum (phrase.first.isAlphanum_of_mem_chars hc)
      have hclose : ∀ c ∈ ['}'], isMark c = false := by
        intro c hc
        rw [List.mem_singleton.mp hc]
        rfl
      -- the slash stands before a brace and stays
      have hslash : ∀ more, raiseStarts ('/' :: '{' :: more) = '/' :: raiseStarts ('{' :: more) := by
        intro more
        rw [raiseStarts, if_neg]
        rintro ⟨_, hbrace⟩
        exact absurd hbrace (by decide)
      have hinner := raiseStarts_append hfirst
        ((phrase.rest.flatMap fun word => '_' :: word.chars) ++ (['}'] ++ rest))
      rw [raiseStarts_words, raiseStarts_append hclose] at hinner
      rw [Segment.text, Segment.raised, Phrase.text]
      simp only [List.cons_append, List.append_assoc] at hinner ⊢
      rw [hslash, hinner]

theorem raiseStarts_segments (segments : List Segment) :
    raiseStarts (segments.flatMap Segment.text) = segments.flatMap Segment.raised := by
  induction segments with
  | nil => rfl
  | cons segment segments ih =>
      rw [List.flatMap_cons, List.flatMap_cons, raiseStarts_segment, ih]

/-! ## The second pass -/

/-- What holds no slash stays and is passed over. -/
theorem raiseBraced_append {text : List Char} (h : '/' ∉ text) (rest : List Char) :
    raiseBraced (text ++ rest) = text ++ raiseBraced rest := by
  induction text with
  | nil => rw [List.nil_append, List.nil_append]
  | cons c text ih =>
      have hc : c ≠ '/' := fun heq => h (heq ▸ List.mem_cons_self)
      rw [List.cons_append, raiseBraced_of_not_braced (if_neg hc), List.cons_append,
        ih fun hm => h (List.mem_cons_of_mem _ hm)]

theorem untilBrace?_append {text : List Char} (h : ∀ c ∈ text, c ≠ '}' ∧ c ≠ '\n')
    (rest : List Char) : untilBrace? (text ++ '}' :: rest) = some (text, rest) := by
  induction text with
  | nil => rfl
  | cons c text ih =>
      have hc := h c List.mem_cons_self
      rw [List.cons_append, untilBrace?, if_neg hc.1, if_neg hc.2,
        ih fun d hd => h d (List.mem_cons_of_mem _ hd)]
      rfl

/-- A name in braces that holds letters and digits only gives way to its capitalised form. -/
theorem raiseBraced_braced {c : Char} {text : List Char}
    (h : ∀ d ∈ c :: text, d.isAlphanum = true) (rest : List Char) :
    raiseBraced ('/' :: '{' :: c :: (text ++ '}' :: rest))
      = c.toUpper :: text.map Char.toLower ++ raiseBraced rest := by
  have hplain : ∀ d ∈ text, d ≠ '}' ∧ d ≠ '\n' := fun d hd =>
    have hd := h d (List.mem_cons_of_mem _ hd)
    ⟨ne_of_isAlphanum hd (by decide), ne_of_isAlphanum hd (by decide)⟩
  have hfirst : c ≠ '\n' := ne_of_isAlphanum (h c List.mem_cons_self) (by decide)
  have hbraced : braced? ('{' :: c :: (text ++ '}' :: rest)) = some (c :: text, rest) := by
    rw [braced?, if_neg hfirst, untilBrace?_append hplain]
    rfl
  have hlower : text.flatMap Text.toLower = text.map Char.toLower := by
    rw [List.map_eq_flatMap]
    exact List.flatMap_congr fun d hd => toLower_of_isAlphanum (h d (List.mem_cons_of_mem _ hd))
  rw [raiseBraced_of_braced hbraced, capitalise, toUpper_of_isAlphanum (h c List.mem_cons_self),
    hlower, List.singleton_append]

end Endpoint.Naming

namespace Phrase

variable (phrase : Phrase)

theorem isAlphanum_of_mem_joined {c : Char} (h : c ∈ phrase.joined) : c.isAlphanum = true := by
  obtain ⟨word, _, hc⟩ := List.mem_flatMap.mp h
  exact word.isAlphanum_of_mem_chars hc

theorem isAlphanum_of_mem_raised {c : Char} (h : c ∈ phrase.raised) : c.isAlphanum = true := by
  obtain ⟨word, _, hc⟩ := List.mem_flatMap.mp h
  exact word.isAlphanum_of_mem_raised hc

theorem joined_eq : phrase.joined
    = phrase.first.first :: (phrase.first.rest ++ phrase.rest.flatMap Word.chars) := rfl

/-- Lower case does not tell whether starts were raised before. -/
theorem map_toLower_tail_joined :
    (phrase.first.rest ++ phrase.rest.flatMap Word.raised).map Char.toLower
      = phrase.joined.tail.map Char.toLower := by
  have hrest : phrase.rest.flatMap (fun word => word.raised.map Char.toLower)
      = phrase.rest.flatMap fun word => word.chars.map Char.toLower :=
    List.flatMap_congr fun word _ => word.map_toLower_raised
  rw [joined_eq, List.tail_cons, List.map_append, List.map_append, List.map_flatMap, hrest,
    List.map_flatMap]

end Phrase

theorem Segment.isAlphanum_of_mem_name {segment : Segment} {c : Char} (h : c ∈ segment.name) :
    c.isAlphanum = true := by
  cases segment with
  | literal phrase => exact phrase.isAlphanum_of_mem_raised h
  | parameter phrase =>
      rcases List.mem_cons.mp h with rfl | h
      · exact isAlphanum_toUpper (phrase.first.isAlphanum _ List.mem_cons_self)
      · obtain ⟨d, hd, rfl⟩ := List.mem_map.mp h
        exact isAlphanum_toLower (phrase.isAlphanum_of_mem_joined (List.mem_of_mem_tail hd))

namespace Endpoint.Naming

/-- The second pass leaves bare phrases, which hold no slash any more, and capitalises those in
braces. -/
theorem raiseBraced_segments (segments : List Segment) :
    raiseBraced (segments.flatMap Segment.raised) = segments.flatMap Segment.name := by
  induction segments with
  | nil =>
      show raiseBraced [] = []
      rw [raiseBraced]
  | cons segment segments ih =>
      rw [List.flatMap_cons, List.flatMap_cons]
      cases segment with
      | literal phrase =>
          have hslash : '/' ∉ phrase.raised := fun hm =>
            ne_of_isAlphanum (phrase.isAlphanum_of_mem_raised hm) (by decide) rfl
          rw [Segment.raised, Segment.name, raiseBraced_append hslash, ih]
      | parameter phrase =>
          -- the start of the first word is raised here, those of the others were before
          have hall : ∀ c ∈ phrase.first.first
              :: (phrase.first.rest ++ phrase.rest.flatMap Word.raised), c.isAlphanum = true := by
            intro c hc
            rw [← List.cons_append] at hc
            rcases List.mem_append.mp hc with hc | hc
            · exact phrase.first.isAlphanum c hc
            · obtain ⟨word, _, hc⟩ := List.mem_flatMap.mp hc
              exact word.isAlphanum_of_mem_raised hc
          have hstep := raiseBraced_braced hall (segments.flatMap Segment.raised)
          rw [ih, phrase.map_toLower_tail_joined] at hstep
          rw [Segment.raised, Segment.name, Word.chars]
          simp only [List.cons_append, List.append_assoc, List.nil_append] at hstep ⊢
          exact hstep

end Endpoint.Naming

theorem Method.isAlphanum_of_mem_name (method : Method) :
    ∀ c ∈ method.name.toList, c.isAlphanum = true := by
  have hall : method.name.toList.all Char.isAlphanum = true := by cases method <;> rfl
  exact List.all_eq_true.mp hall

open Endpoint.Naming in
/-- The name derived from a method and a path template: the method, then what each segment adds. It
holds letters and digits only. -/
theorem Method.fallbackName_template (method : Method) (segments : List Segment) :
    method.fallbackName (templatePath segments)
        = method.name ++ String.ofList (segments.flatMap Segment.name) ∧
      ∀ c ∈ (method.fallbackName (templatePath segments)).toList, c.isAlphanum = true := by
  have hname : method.fallbackName (templatePath segments)
      = method.name ++ String.ofList (segments.flatMap Segment.name) := by
    rw [fallbackName_eq, templatePath, String.toList_ofList, raiseStarts_segments,
      raiseBraced_segments]
  refine ⟨hname, fun c hc => ?_⟩
  rw [hname, String.toList_append, String.toList_ofList] at hc
  rcases List.mem_append.mp hc with hc | hc
  · exact method.isAlphanum_of_mem_name c hc
  · obtain ⟨segment, _, hc⟩ := List.mem_flatMap.mp hc
    exact segment.isAlphanum_of_mem_name hc

example : Method.post.fallbackName "/user_groups/{group_ID}" = "postUserGroupsGroupid" := by
  decide +kernel

end OpenApi
