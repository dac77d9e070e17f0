import Mathlib
import OpenApi.Endpoint.Naming
import OpenApi.Proofs.Pattern.Run

/-!
# What the patterns of derived names match

A name is derived from a path by replacing all matches of two patterns. Each of them is compiled to a
handful of instructions, and a run over a text holds few threads at a time. So what it finds can be
followed character by character: `segmentStart` matches at the first mark with a word character behind
it, and `bracedSegment` at the first name in braces, up to the nearest closing brace on the line.

Replacing all matches is therefore what two functions do that scan the text once, `raiseStarts` and
`raiseBraced`. The derived name is what they make of the path: `Method.fallbackName_eq`.
-/

namespace OpenApi

open Pattern Program

namespace Endpoint.Naming

/-! ## Starts of words -/

/-- A slash or an underscore. -/
def isMark (c : Char) : Bool := c = '/' || c = '_'

/-- An ASCII letter or digit, or an underscore. -/
def isWord (c : Char) : Bool := c.isAlphanum || c = '_'

/-- The first mark with a word character behind it, which is the group. -/
def firstStart? : List Char → Option Cut
  | [] => none
  | [_] => none
  | mark :: c :: rest =>
    if isMark mark ∧ isWord c then some ⟨[], [mark], [c], [], rest⟩
    else (firstStart? (c :: rest)).map (·.cons mark)

/-- Drops every mark before a word character, which becomes a capital. -/
def raiseStarts : List Char → List Char
  | [] => []
  | [c] => [c]
  | mark :: c :: rest =>
    if isMark mark ∧ isWord c then Text.toUpper c ++ raiseStarts rest
    else mark :: raiseStarts (c :: rest)

/-- The instructions of `segmentStart`. -/
def startProgram : Program :=
  #[.done, .mark 1 0, .mark 3 1, .set isWord 2, .mark 2 3, .set isMark 4, .mark 0 5]

theorem segmentStart_eq : segmentStart = some ⟨startProgram, 6, []⟩ := by
  have hword : (fun c => CharSet.range 'A' 'Z' c || CharSet.range 'a' 'z' c ||
      CharSet.range '0' '9' c || decide (c = '_')) = isWord := by
    funext c
    rw [isWord, Char.isAlphanum, Char.isAlpha, Char.isUpper, Char.isLower, Char.isDigit,
      Bool.decide_and]
    rfl
  have hmark : (fun c => decide (c = '/') || decide (c = '_')) = isMark := rfl
  have hcompiled : segmentStart = some ⟨#[.done, .mark 1 0, .mark 3 1,
      .set (fun c => CharSet.range 'A' 'Z' c || CharSet.range 'a' 'z' c || CharSet.range '0' '9' c ||
        decide (c = '_')) 2,
      .mark 2 3, .set (fun c => decide (c = '/') || decide (c = '_')) 4, .mark 0 5], 6, []⟩ := by
    cbv
  rw [hcompiled, hword, hmark, startProgram]

section

variable {place : Place} {front : Front} {marks : List (Nat × Nat)}

@[simp] theorem startProgram_three : startProgram[3]? = some (.set isWord 2) := rfl

@[simp] theorem startProgram_five : startProgram[5]? = some (.set isMark 4) := rfl

theorem enter_startProgram (h : 6 ∉ front.visited ∧ 5 ∉ front.visited) :
    enter startProgram place ⟨6, []⟩ front
      = ⟨front.threads.push ⟨5, [(0, place.index)]⟩, 5 :: 6 :: front.visited⟩ := by
  simp [enter, expansionBound, expand, startProgram, h]

/-- Behind a mark the group starts. -/
theorem enter_startProgram_mark (h : 4 ∉ front.visited ∧ 3 ∉ front.visited) :
    enter startProgram place ⟨4, marks⟩ front
      = ⟨front.threads.push ⟨3, (2, place.index) :: marks.filter (·.1 ≠ 2)⟩,
          3 :: 4 :: front.visited⟩ := by
  simp [enter, expansionBound, expand, startProgram, h]

/-- Behind a word character the group and the match are over. -/
theorem enter_startProgram_word
    (h : 2 ∉ front.visited ∧ 1 ∉ front.visited ∧ 0 ∉ front.visited) :
    enter startProgram place ⟨2, marks⟩ front
      = ⟨front.threads.push
            ⟨0, (1, place.index) :: ((3, place.index) :: marks.filter (·.1 ≠ 3)).filter (·.1 ≠ 1)⟩,
          0 :: 1 :: 2 :: front.visited⟩ := by
  simp [enter, expansionBound, expand, startProgram, h]

end

/-- The thread behind a mark at a place. -/
def marked (index : Nat) : Thread := ⟨3, [(2, index + 1), (0, index)]⟩

/-- The marks of the first start in a text, in a run that was at a place before the text. -/
def startMarks? (text : List Char) (index : Nat) : Option (List (Nat × Nat)) :=
  (firstStart? text).map (·.marks index)

/-- Without a start at the first of its characters, a text has the starts of the rest. -/
theorem startMarks?_cons {mark c : Char} {rest : List Char} (h : ¬(isMark mark ∧ isWord c))
    (index : Nat) : startMarks? (mark :: c :: rest) index = startMarks? (c :: rest) (index + 1) := by
  rw [startMarks?, startMarks?, firstStart?, if_neg h, Cut.map_marks_cons]

theorem startMarks?_of_not_mark {c : Char} (hc : ¬isMark c = true) (rest : List Char) (index : Nat) :
    startMarks? (c :: rest) index = startMarks? rest (index + 1) := by
  cases rest with
  | nil => rfl
  | cons d rest => exact startMarks?_cons (fun h => hc h.1) index

/-- A run finds the first start, both from the start of a text and behind a mark. -/
theorem run_startProgram (text : List Char) :
    (∀ index before, run startProgram 6 #[] none index before text = startMarks? text index) ∧
      ∀ index before mark, isMark mark = true →
        run startProgram 6 #[marked index] none (index + 1) before text
          = startMarks? (mark :: text) index := by
  -- on the characters that are left; a mark may be the word character of the one before it
  induction text with
  | nil =>
      constructor
      · intro index before
        exact run_nil (by simp [run.begin, enter_startProgram, finished])
      · intro index before mark hmark
        exact run_nil (by simp [run.begin, enter_startProgram, finished, marked])
  | cons c rest ih =>
      obtain ⟨ihempty, ihmarked⟩ := ih
      constructor
      · intro index before
        by_cases hc : isMark c = true
        · rw [run_cons ⟨#[marked index], [3, 4]⟩, ihmarked index _ c hc]
          simp [run.begin, step, hc, enter_startProgram, enter_startProgram_mark, marked]
        · rw [run_cons ⟨#[], []⟩, ihempty, startMarks?_of_not_mark hc]
          simp [run.begin, step, hc, enter_startProgram]
      · intro index before mark hmark
        by_cases hw : isWord c = true
        · -- the thread behind the mark is done, whatever else stands behind it
          obtain ⟨front, hstep, hdone⟩ : ∃ front : Front,
              step startProgram c ⟨index + 2, some c, rest.head?⟩
                  (run.begin startProgram 6 #[marked index] none
                    ⟨index + 1, before, some c⟩).toList ⟨#[], []⟩ = (front, none) ∧
                front.threads.toList.head?
                  = some ⟨0, [(1, index + 2), (3, index + 2), (2, index + 1), (0, index)]⟩ := by
            by_cases hc : isMark c = true <;>
            simp [run.begin, step, hw, hc, marked, enter_startProgram, enter_startProgram_word,
              enter_startProgram_mark]
          rw [run_cons _ hstep, run_done rfl hdone, startMarks?, firstStart?, if_pos ⟨hmark, hw⟩]
          rfl
        · rw [startMarks?_cons fun h => hw h.2]
          by_cases hc : isMark c = true
          · rw [run_cons ⟨#[marked (index + 1)], [3, 4]⟩, ihmarked _ _ c hc]
            simp [run.begin, step, hw, hc, marked, enter_startProgram, enter_startProgram_mark]
          · rw [run_cons ⟨#[], []⟩, ihempty, startMarks?_of_not_mark hc]
            simp [run.begin, step, hw, hc, marked, enter_startProgram]

/-- Dropping the marks before words rewrites the first start and goes on behind it. -/
theorem rewrites_firstStart? (text : List Char) :
    Rewrites (·.flatMap Text.toUpper) raiseStarts text (firstStart? text) := by
  fun_induction firstStart? text with
  | case1 => rfl
  | case2 => rfl
  | case3 mark c rest h =>
      refine ⟨rfl, List.cons_ne_nil _ _, ?_⟩
      rw [raiseStarts, if_pos h]
      simp
  | case4 mark c rest h ih =>
      apply ih.cons
      rw [raiseStarts, if_neg h]

/-- Replacing all matches of the first pattern is dropping the marks before words. -/
theorem replaceGroups_segmentStart (text : List Char) :
    replaceGroups segmentStart (·.flatMap Text.toUpper) text = raiseStarts text := by
  rw [segmentStart_eq]
  exact Compiled.replaceAll_eq (fun before text => (run_startProgram text).1 0 before)
    rewrites_firstStart? text

/-! ## Names in braces -/

/-- The text before the next closing brace and what follows the brace; no line break may come
between. -/
def untilBrace? : List Char → Option (List Char × List Char)
  | [] => none
  | c :: rest =>
    if c = '}' then some ([], rest)
    else if c = '\n' then none
    else (untilBrace? rest).map fun (name, after) => (c :: name, after)

/-- The name in braces behind a slash, not empty, and what follows. -/
def braced? : List Char → Option (List Char × List Char)
  | '{' :: c :: rest =>
    if c = '\n' then none else (untilBrace? rest).map fun (name, after) => (c :: name, after)
  | _ => none

/-- The first name in braces behind a slash. -/
def firstBraced? : List Char → Option Cut
  | [] => none
  | c :: rest =>
    match if c = '/' then braced? rest else none with
    | some (name, after) => some ⟨[], ['/', '{'], name, ['}'], after⟩
    | none => (firstBraced? rest).map (·.cons c)

theorem untilBrace?_eq_some {text name after : List Char}
    (h : untilBrace? text = some (name, after)) : text = name ++ '}' :: after := by
  fun_induction untilBrace? text generalizing name with
  | case1 => cases h
  | case2 rest =>
      cases h
      rfl
  | case3 => cases h
  | case4 c rest _ _ ih =>
      obtain ⟨⟨inner, after'⟩, hinner, heq⟩ := Option.map_eq_some_iff.mp h
      cases heq
      rw [ih hinner, List.cons_append]

theorem braced?_eq_some {text name after : List Char} (h : braced? text = some (name, after)) :
    text = '{' :: (name ++ '}' :: after) := by
  unfold braced? at h
  split at h
  · next c rest =>
      split at h
      · cases h
      · obtain ⟨⟨inner, after'⟩, hinner, heq⟩ := Option.map_eq_some_iff.mp h
        cases heq
        rw [untilBrace?_eq_some hinner, List.cons_append]
  · cases h

/-- Replaces every name in braces behind a slash by its capitalised form. -/
def raiseBraced : List Char → List Char
  | [] => []
  | c :: rest =>
    match _hfirst : if c = '/' then braced? rest else none with
    | some (name, after) => capitalise name ++ raiseBraced after
    | none => c :: raiseBraced rest
termination_by text => text.length
decreasing_by
  · obtain ⟨_, hbraced⟩ := Option.ite_none_right_eq_some.mp _hfirst
    rw [braced?_eq_some hbraced]
    simp only [List.length_cons, List.length_append]
    omega
  · exact Nat.lt_succ_self _

theorem raiseBraced_of_braced {rest name after : List Char} (h : braced? rest = some (name, after)) :
    raiseBraced ('/' :: rest) = capitalise name ++ raiseBraced after := by
  rw [raiseBraced]
  split
  · next name' after' h' =>
      rw [if_pos rfl, h] at h'
      cases h'
      rfl
  · next h' =>
      rw [if_pos rfl, h] at h'
      cases h'

theorem raiseBraced_of_not_braced {c : Char} {rest : List Char}
    (h : (if c = '/' then braced? rest else none) = none) :
    raiseBraced (c :: rest) = c :: raiseBraced rest := by
  rw [raiseBraced]
  split
  · next h' =>
      rw [h] at h'
      cases h'
  · rfl

/-- Replacing names in braces rewrites the first one and goes on behind it. -/
theorem rewrites_firstBraced? (text : List Char) :
    Rewrites capitalise raiseBraced text (firstBraced? text) := by
  induction text with
  | nil =>
      show raiseBraced [] = []
      rw [raiseBraced]
  | cons c rest ih =>
      rw [firstBraced?]
      split
      · next name after h =>
          obtain ⟨rfl, hbraced⟩ := Option.ite_none_right_eq_some.mp h
          refine ⟨?_, List.cons_ne_nil _ _, raiseBraced_of_braced hbraced⟩
          rw [braced?_eq_some hbraced]
          rfl
      · next h => exact ih.cons (raiseBraced_of_not_braced h)

/-- The instructions of `bracedSegment`. -/
def bracedProgram : Program :=
  #[.done, .mark 1 0, .set (· = '}') 1, .mark 3 2, .fork 3 5, .set (· ≠ '\n') 4, .mark 2 5,
    .set (· = '{') 6, .set (· = '/') 7, .mark 0 8]

theorem bracedSegment_eq : bracedSegment = some ⟨bracedProgram, 9, []⟩ := by
  cbv

section

variable {place : Place} {front : Front} {marks : List (Nat × Nat)}

@[simp] theorem bracedProgram_two : bracedProgram[2]? = some (.set (· = '}') 1) := rfl

@[simp] theorem bracedProgram_five : bracedProgram[5]? = some (.set (· ≠ '\n') 4) := rfl

@[simp] theorem bracedProgram_seven : bracedProgram[7]? = some (.set (· = '{') 6) := rfl

@[simp] theorem bracedProgram_eight : bracedProgram[8]? = some (.set (· = '/') 7) := rfl

theorem enter_bracedProgram (h : 9 ∉ front.visited ∧ 8 ∉ front.visited) :
    enter bracedProgram place ⟨9, []⟩ front
      = ⟨front.threads.push ⟨8, [(0, place.index)]⟩, 8 :: 9 :: front.visited⟩ := by
  simp [enter, expansionBound, expand, bracedProgram, h]

/-- Behind a slash an opening brace is expected. -/
theorem enter_bracedProgram_slash (h : 7 ∉ front.visited) :
    enter bracedProgram place ⟨7, marks⟩ front
      = ⟨front.threads.push ⟨7, marks⟩, 7 :: front.visited⟩ := by
  simp [enter, expansionBound, expand, bracedProgram, h]

/-- Behind the brace the group starts. -/
theorem enter_bracedProgram_brace (h : 6 ∉ front.visited ∧ 5 ∉ front.visited) :
    enter bracedProgram place ⟨6, marks⟩ front
      = ⟨front.threads.push ⟨5, (2, place.index) :: marks.filter (·.1 ≠ 2)⟩,
          5 :: 6 :: front.visited⟩ := by
  simp [enter, expansionBound, expand, bracedProgram, h]

/-- A thread that comes to the group later than another one is dropped. -/
theorem enter_bracedProgram_later (h : 6 ∉ front.visited ∧ 5 ∈ front.visited) :
    enter bracedProgram place ⟨6, marks⟩ front = { front with visited := 6 :: front.visited } := by
  simp [enter, expansionBound, expand, bracedProgram, h]

/-- Behind a character of the group a closing brace is preferred to more of the group. -/
theorem enter_bracedProgram_name
    (h : 4 ∉ front.visited ∧ 3 ∉ front.visited ∧ 2 ∉ front.visited ∧ 5 ∉ front.visited) :
    enter bracedProgram place ⟨4, marks⟩ front
      = ⟨(front.threads.push ⟨2, (3, place.index) :: marks.filter (·.1 ≠ 3)⟩).push ⟨5, marks⟩,
          5 :: 2 :: 3 :: 4 :: front.visited⟩ := by
  simp [enter, expansionBound, expand, bracedProgram, h]

/-- Behind the closing brace the match is over. -/
theorem enter_bracedProgram_end (h : 1 ∉ front.visited ∧ 0 ∉ front.visited) :
    enter bracedProgram place ⟨1, marks⟩ front
      = ⟨front.threads.push ⟨0, (1, place.index) :: marks.filter (·.1 ≠ 1)⟩,
          0 :: 1 :: front.visited⟩ := by
  simp [enter, expansionBound, expand, bracedProgram, h]

end

/-- The thread behind a slash at a place. -/
def slashed (index : Nat) : Thread := ⟨7, [(0, index)]⟩

/-- The thread in a name that a slash at a place stands before. -/
def inside (index : Nat) : Thread := ⟨5, [(2, index + 2), (0, index)]⟩

/-- The thread that takes such a name to end at another place. -/
def ending (index last : Nat) : Thread := ⟨2, [(3, last), (2, index + 2), (0, index)]⟩

/-- The marks of the first name in braces, in a run that was at a place before the text. -/
def bracedMarks? (text : List Char) (index : Nat) : Option (List (Nat × Nat)) :=
  (firstBraced? text).map (·.marks index)

theorem bracedMarks?_cons {c : Char} {rest : List Char}
    (h : (if c = '/' then braced? rest else none) = none) (index : Nat) :
    bracedMarks? (c :: rest) index = bracedMarks? rest (index + 1) := by
  rw [bracedMarks?, bracedMarks?, firstBraced?, h]
  exact Cut.map_marks_cons _ c index

theorem bracedMarks?_of_braced {rest name after : List Char} (h : braced? rest = some (name, after))
    (index : Nat) : bracedMarks? ('/' :: rest) index
      = some (Cut.marks ⟨[], ['/', '{'], name, ['}'], after⟩ index) := by
  have hfirst : firstBraced? ('/' :: rest) = some ⟨[], ['/', '{'], name, ['}'], after⟩ := by
    unfold firstBraced?
    rw [if_pos rfl, h]
  rw [bracedMarks?, hfirst]
  rfl

/-- Where no brace closes on the line, no name in braces is found on it. -/
theorem braced?_eq_none_of_untilBrace? {text : List Char} (h : untilBrace? text = none) :
    braced? text = none := by
  unfold braced?
  split
  · next c rest =>
      rw [untilBrace?, if_neg (by decide), if_neg (by decide), Option.map_eq_none_iff, untilBrace?] at h
      split
      · rfl
      · next hc =>
          rw [if_neg hc] at h
          split at h
          · cases h
          · rw [Option.map_eq_none_iff] at h ⊢
            exact h
  · rfl

theorem bracedMarks?_cons_of_untilBrace? {c : Char} {rest : List Char} (h : untilBrace? rest = none)
    (index : Nat) : bracedMarks? (c :: rest) index = bracedMarks? rest (index + 1) := by
  apply bracedMarks?_cons
  rw [braced?_eq_none_of_untilBrace? h, ite_self]

/-- The marks of a name that started behind a slash at one place and is read on at another, if a brace
closes it, and else those of the first name in braces. -/
def innerMarks? (text : List Char) (index last : Nat) : Option (List (Nat × Nat)) :=
  match untilBrace? text with
  | some (name, _) =>
    some [(1, last + name.length + 1), (3, last + name.length), (2, index + 2), (0, index)]
  | none => bracedMarks? text last

/-- A character that does not end a name is one of it; if no brace closes the name, nothing starts at the
character either. -/
theorem innerMarks?_cons {c : Char} {rest : List Char} {index last : Nat} (hb : c ≠ '}')
    (hn : c ≠ '\n') : innerMarks? (c :: rest) index last = innerMarks? rest index (last + 1) := by
  rw [innerMarks?, innerMarks?, untilBrace?, if_neg hb, if_neg hn]
  cases huntil : untilBrace? rest with
  | some found =>
      have hlast : last + 1 + found.1.length = last + (found.1.length + 1) := by omega
      simp only [Option.map_some, List.length_cons, hlast]
  | none => exact bracedMarks?_cons_of_untilBrace? huntil last

/-- The first character of a name may be a brace, but no line break. -/
theorem bracedMarks?_of_opened {c : Char} {rest : List Char} {index : Nat} (hn : c ≠ '\n') :
    bracedMarks? ('/' :: '{' :: c :: rest) index = innerMarks? rest index (index + 3) := by
  rw [innerMarks?]
  cases huntil : untilBrace? rest with
  | some found =>
      have hbraced : braced? ('{' :: c :: rest) = some (c :: found.1, found.2) := by
        rw [braced?, if_neg hn, huntil]
        rfl
      have hlast : index + 2 + (found.1.length + 1) = index + 3 + found.1.length := by omega
      rw [bracedMarks?_of_braced hbraced]
      simp only [Cut.marks, List.length_cons, List.length_nil, Nat.add_zero, Nat.zero_add, hlast]
  | none =>
      have hbraced : braced? ('{' :: c :: rest) = none := by
        rw [braced?, if_neg hn, huntil]
        rfl
      rw [bracedMarks?_cons ((if_pos rfl).trans hbraced), bracedMarks?_cons rfl,
        bracedMarks?_cons_of_untilBrace? huntil]

/-- The thread behind a character, if it is a slash. -/
def met (c : Char) (index : Nat) : Array Thread := if c = '/' then #[slashed index] else #[]

/-- What a run finds from the states that it can be in: with no thread or behind a slash, at the start of
a name, and in a name, where it may also be behind a slash. -/
structure BracedRuns (text : List Char) : Prop where
  fresh : ∀ index before,
    run bracedProgram 9 #[] none index before text = bracedMarks? text index
  behindSlash : ∀ index before,
    run bracedProgram 9 #[slashed index] none (index + 1) before text
      = bracedMarks? ('/' :: text) index
  opened : ∀ index before,
    run bracedProgram 9 #[inside index] none (index + 2) before text
      = bracedMarks? ('/' :: '{' :: text) index
  within : ∀ index last before c other,
    run bracedProgram 9 (#[ending index last, inside index] ++ met c other) none last before text
      = innerMarks? text index last

theorem braced?_cons_of_ne {c : Char} (hc : c ≠ '{') (rest : List Char) :
    braced? (c :: rest) = none := by
  unfold braced?
  split
  · next heq => exact absurd (List.cons.inj heq).1 hc
  · rfl

theorem bracedRuns_nil : BracedRuns [] := by
  refine ⟨fun index before => run_nil ?_, fun index before => run_nil ?_,
    fun index before => run_nil ?_, fun index last before c other => run_nil ?_⟩
  · simp [run.begin, enter_bracedProgram, finished]
  · simp [run.begin, enter_bracedProgram, finished, slashed]
  · simp [run.begin, enter_bracedProgram, finished, inside]
  · by_cases hc : c = '/' <;>
    simp [run.begin, enter_bracedProgram, finished, inside, ending, met, slashed, hc]

section

variable {c : Char} {rest : List Char}

theorem BracedRuns.fresh_cons (ih : BracedRuns rest) (index : Nat) (before : Option Char) :
    run bracedProgram 9 #[] none index before (c :: rest) = bracedMarks? (c :: rest) index := by
  by_cases hc : c = '/'
  · subst hc
    rw [run_cons ⟨#[slashed index], [7]⟩, ih.behindSlash]
    simp [run.begin, enter_bracedProgram, step, enter_bracedProgram_slash, slashed]
  · rw [run_cons ⟨#[], []⟩, ih.fresh, bracedMarks?_cons (if_neg hc)]
    simp [run.begin, enter_bracedProgram, step, hc]

theorem BracedRuns.behindSlash_cons (ih : BracedRuns rest) (index : Nat) (before : Option Char) :
    run bracedProgram 9 #[slashed index] none (index + 1) before (c :: rest)
      = bracedMarks? ('/' :: c :: rest) index := by
  by_cases hb : c = '{'
  · subst hb
    rw [run_cons ⟨#[inside index], [5, 6]⟩, ih.opened]
    simp [run.begin, enter_bracedProgram, step, enter_bracedProgram_brace, slashed, inside]
  · rw [bracedMarks?_cons ((if_pos rfl).trans (braced?_cons_of_ne hb rest))]
    by_cases hc : c = '/'
    · subst hc
      rw [run_cons ⟨#[slashed (index + 1)], [7]⟩, ih.behindSlash]
      simp [run.begin, enter_bracedProgram, step, enter_bracedProgram_slash, slashed]
    · rw [run_cons ⟨#[], []⟩, ih.fresh, bracedMarks?_cons (if_neg hc)]
      simp [run.begin, enter_bracedProgram, step, slashed, hc, hb]

theorem BracedRuns.opened_cons (ih : BracedRuns rest) (index : Nat) (before : Option Char) :
    run bracedProgram 9 #[inside index] none (index + 2) before (c :: rest)
      = bracedMarks? ('/' :: '{' :: c :: rest) index := by
  by_cases hn : c = '\n'
  · subst hn
    rw [run_cons ⟨#[], []⟩, ih.fresh, bracedMarks?_cons rfl, bracedMarks?_cons rfl,
      bracedMarks?_cons rfl]
    simp [run.begin, enter_bracedProgram, step, inside]
  · obtain ⟨visited, hstep⟩ : ∃ visited, step bracedProgram c ⟨index + 3, some c, rest.head?⟩
        (run.begin bracedProgram 9 #[inside index] none ⟨index + 2, before, some c⟩).toList ⟨#[], []⟩
          = (⟨#[ending index (index + 3), inside index] ++ met c (index + 2), visited⟩, none) := by
      by_cases hc : c = '/' <;>
      simp [run.begin, enter_bracedProgram, step, inside, ending, met, slashed, hc, hn,
        enter_bracedProgram_name, enter_bracedProgram_slash]
    rw [run_cons _ hstep, ih.within, bracedMarks?_of_opened hn]

theorem BracedRuns.within_cons (ih : BracedRuns rest) (index last : Nat) (before : Option Char)
    (d : Char) (other : Nat) :
    run bracedProgram 9 (#[ending index last, inside index] ++ met d other) none last before (c :: rest)
      = innerMarks? (c :: rest) index last := by
  by_cases hn : c = '\n'
  · subst hn
    rw [run_cons ⟨#[], []⟩, ih.fresh]
    · exact (bracedMarks?_cons rfl last).symm
    · by_cases hd : d = '/' <;>
      simp [run.begin, enter_bracedProgram, step, inside, ending, met, slashed, hd]
  · by_cases hb : c = '}'
    · subst hb
      obtain ⟨front, hstep, hdone⟩ : ∃ front : Front,
              step bracedProgram '}' ⟨last + 1, some '}', rest.head?⟩
                  (run.begin bracedProgram 9 (#[ending index last, inside index] ++ met d other) none
                    ⟨last, before, some '}'⟩).toList ⟨#[], []⟩ = (front, none) ∧
                front.threads.toList.head?
                  = some ⟨0, [(1, last + 1), (3, last), (2, index + 2), (0, index)]⟩ := by
        by_cases hd : d = '/' <;>
        simp [run.begin, enter_bracedProgram, step, inside, ending, met, slashed, hd,
          enter_bracedProgram_end, enter_bracedProgram_name]
      rw [run_cons _ hstep, run_done rfl hdone]
      rfl
    · obtain ⟨visited, hstep⟩ : ∃ visited, step bracedProgram c ⟨last + 1, some c, rest.head?⟩
          (run.begin bracedProgram 9 (#[ending index last, inside index] ++ met d other) none
            ⟨last, before, some c⟩).toList ⟨#[], []⟩
          = (⟨#[ending index (last + 1), inside index] ++ met c last, visited⟩, none) := by
        by_cases hd : d = '/' <;> by_cases ho : c = '{' <;> by_cases hc : c = '/' <;>
        simp [run.begin, enter_bracedProgram, step, inside, ending, met, slashed, hd, ho, hc, hn, hb,
          enter_bracedProgram_name, enter_bracedProgram_slash, enter_bracedProgram_later]
      rw [run_cons _ hstep, ih.within, innerMarks?_cons hb hn]

end

theorem bracedRuns (text : List Char) : BracedRuns text := by
  induction text with
  | nil => exact bracedRuns_nil
  | cons c rest ih => exact ⟨ih.fresh_cons, ih.behindSlash_cons, ih.opened_cons, ih.within_cons⟩

/-- Replacing all matches of the second pattern is capitalising names in braces. -/
theorem replaceGroups_bracedSegment (text : List Char) :
    replaceGroups bracedSegment capitalise text = raiseBraced text := by
  rw [bracedSegment_eq]
  exact Compiled.replaceAll_eq (fun before text => (bracedRuns text).fresh 0 before)
    rewrites_firstBraced? text

end Endpoint.Naming

open Endpoint.Naming in
/-- A derived name is the method and what both passes make of the path. -/
theorem Method.fallbackName_eq (method : Method) (path : String) :
    method.fallbackName path
      = method.name ++ String.ofList (raiseBraced (raiseStarts path.toList)) := by
  rw [fallbackName, replaceGroups_segmentStart, replaceGroups_bracedSegment]

end OpenApi
