import OpenApi.Pattern.Replacement

/-!
# Running a pattern over a text

A run goes over a text character by character, and what it does at one of them depends on the threads
there alone: `run_cons` is that step, and `run_done` the end of a run whose preferred thread is done.
The first match is read off the marks that a run ends with (`findAfter?_of_run`).

Replacing all matches is replacing the first one and going on behind it. So whatever function of the
text does this is the same as replacing, if no match is empty: `replaceAll_eq`.
-/

namespace OpenApi.Pattern

namespace Program

variable {program : Program} {start index : Nat} {before : Option Char} {text : List Char}
  {threads : Array Thread}

/-! ## One character -/

/-- At a character where no thread is done the run goes on with the threads after it. -/
theorem run_cons {c : Char} {rest : List Char} (front : Front)
    (h : step program c ⟨index + 1, some c, rest.head?⟩
        (run.begin program start threads none ⟨index, before, some c⟩).toList ⟨#[], []⟩
      = (front, none)) :
    run program start threads none index before (c :: rest)
      = run program start front.threads none (index + 1) (some c) rest := by
  rw [run]
  simp only [h, Option.none_or, Option.isSome_none, Bool.false_eq_true, and_false, if_false]

/-- Where no thread is done at the end of a text nothing has matched. -/
theorem run_nil
    (h : finished program (run.begin program start threads none ⟨index, before, none⟩).toList
      = none) :
    run program start threads none index before [] = none := by
  rw [run]
  simp only [h, Option.none_or]

/-- Following instructions only adds threads, behind those that are there. -/
theorem prefix_expand (place : Place) (fuel : Nat) (pending : List Thread) (front : Front) :
    front.threads.toList <+: (expand program place fuel pending front).threads.toList := by
  fun_induction expand program place fuel pending front with
  | case1 | case2 => exact List.prefix_refl _
  | case9 _ _ _ _ _ _ _ _ _ ih | case10 _ _ _ _ _ _ _ ih =>
      rw [Array.toList_push] at ih
      exact (List.prefix_append _ _).trans ih
  | _ => assumption

theorem prefix_begin (place : Place) :
    threads.toList <+: (run.begin program start threads none place).toList := by
  rw [run.begin]
  exact prefix_expand place _ _ ⟨threads, _⟩

/-- A thread that is done cuts off all others, so its marks are those of the match. -/
theorem run_done {marks : List (Nat × Nat)} (hdone : program[0]? = some .done)
    (hfirst : threads.toList.head? = some ⟨0, marks⟩) :
    run program start threads none index before text = some marks := by
  have hbegin : ∀ place, ∃ rest,
      (run.begin program start threads none place).toList = ⟨0, marks⟩ :: rest := by
    intro place
    obtain ⟨more, hmore⟩ := @prefix_begin program start threads place
    obtain ⟨rest, hrest⟩ := List.head?_eq_some_iff.mp hfirst
    exact ⟨rest ++ more, by rw [← hmore, hrest, List.cons_append]⟩
  cases text with
  | nil =>
      obtain ⟨rest, hrest⟩ := hbegin ⟨index, before, none⟩
      rw [run]
      simp only [hrest, finished, List.findSome?_cons, hdone, Option.some_or]
  | cons c text =>
      obtain ⟨rest, hrest⟩ := hbegin ⟨index, before, some c⟩
      rw [run]
      simp [hrest, step, hdone]

end Program

/-! ## The first match -/

/-- A text taken apart at a match with one group: what stands before the match, the match before its
group, the group, the match behind it, and what stands behind the match. -/
structure Cut where
  front : List Char
  opening : List Char
  name : List Char
  closing : List Char
  after : List Char

namespace Cut

variable (cut : Cut)

/-- The text that was taken apart. -/
def text : List Char :=
  cut.front ++ (cut.opening ++ (cut.name ++ (cut.closing ++ cut.after)))

/-- The same with one more character before it. -/
def cons (c : Char) : Cut := { cut with front := c :: cut.front }

/-- The marks of the match in a run that was at a place before the text. -/
def marks (index : Nat) : List (Nat × Nat) :=
  let first := index + cut.front.length + cut.opening.length
  let last := first + cut.name.length
  [(1, last + cut.closing.length), (3, last), (2, first), (0, index + cut.front.length)]

theorem marks_cons (c : Char) (index : Nat) : (cut.cons c).marks index = cut.marks (index + 1) := by
  simp only [marks, cons, List.length_cons, Nat.add_right_comm index 1, ← Nat.add_assoc]

/-- The same of what may have been taken apart. -/
theorem map_marks_cons (first : Option Cut) (c : Char) (index : Nat) :
    (first.map (·.cons c)).map (·.marks index) = first.map (·.marks (index + 1)) := by
  rw [Option.map_map]
  congr 1
  funext cut
  exact cut.marks_cons c index

end Cut

section

variable {pattern : Compiled} {before : Option Char}

theorem drop_take_append (front middle after : List Char) :
    ((front ++ (middle ++ after)).take (front.length + middle.length)).drop front.length
      = middle := by
  rw [List.take_length_add_append, List.drop_left, List.take_left]

/-- The match at which a text was taken apart. -/
def Cut.found (cut : Cut) : Match :=
  ⟨cut.front, [(1, cut.name), (0, cut.opening ++ (cut.name ++ cut.closing))], cut.after⟩

/-- The match that a run has marked. -/
theorem Compiled.findAfter?_of_run {cut : Cut}
    (h : Program.run pattern.program pattern.start #[] none 0 before cut.text
      = some (cut.marks 0)) : pattern.findAfter? before cut.text = some cut.found := by
  obtain ⟨front, opening, name, closing, after⟩ := cut
  have hname := drop_take_append (front ++ opening) name (closing ++ after)
  have hwhole := drop_take_append front (opening ++ (name ++ closing)) after
  have hafter : (front ++ (opening ++ (name ++ (closing ++ after)))).drop
      (front.length + opening.length + name.length + closing.length) = after := by
    rw [← List.append_assoc, ← List.append_assoc, ← List.append_assoc]
    exact List.drop_left' (by simp only [List.length_append])
  simp only [List.length_append, List.append_assoc, ← Nat.add_assoc] at hname hwhole
  rw [findAfter?, h]
  simp [Cut.marks, Cut.text, Cut.found, groupTexts, List.lookup_cons, hname, hwhole, hafter]

/-! ## All matches -/

/-- Replacing all matches is what a function does that rewrites the first match and goes on behind it, if
no match is empty. -/
theorem Compiled.replaceEach_eq {write : List (Nat × List Char) → List Char}
    {scan : List Char → List Char}
    (hnone : ∀ {before text}, pattern.findAfter? before text = none → scan text = text)
    (hsome : ∀ {before text found}, pattern.findAfter? before text = some found →
      found.whole ≠ [] ∧ found.after.length < text.length ∧
        scan text = found.before ++ write found.groups ++ scan found.after)
    {fuel : Nat} {touching : Bool} {text : List Char} (hf : text.length < fuel) :
    pattern.replaceEach write fuel touching before text = scan text := by
  induction fuel generalizing touching before text with
  | zero => omega
  | succ fuel ih =>
      unfold replaceEach
      split
      · next hfound => exact (hnone hfound).symm
      · next found hfound =>
          obtain ⟨hwhole, hlength, hscan⟩ := hsome hfound
          have hne : ¬(touching ∧ found.before.isEmpty ∧ found.whole.isEmpty) :=
            fun h => hwhole (List.isEmpty_iff.mp h.2.2)
          rw [if_neg hne, ih (by omega), hscan]

/-- A function rewrites the group of a first match and goes on behind it; without one it leaves the text
as it is. -/
def Rewrites (write scan : List Char → List Char) (text : List Char) : Option Cut → Prop
  | none => scan text = text
  | some cut => cut.text = text ∧ cut.opening ≠ [] ∧
      scan text = cut.front ++ (write cut.name ++ scan cut.after)

theorem Rewrites.cons {write scan : List Char → List Char} {text : List Char} {c : Char}
    {first : Option Cut} (h : Rewrites write scan text first) (hc : scan (c :: text) = c :: scan text) :
    Rewrites write scan (c :: text) (first.map (·.cons c)) := by
  cases first with
  | none => exact hc.trans (congrArg (c :: ·) h)
  | some cut =>
      obtain ⟨htext, hopening, hscan⟩ := h
      exact ⟨congrArg (c :: ·) htext, hopening, hc.trans (congrArg (c :: ·) hscan)⟩

/-- Where runs mark first matches, replacing the groups of all matches is what a function does that
rewrites the first one. -/
theorem Compiled.replaceAll_eq {write scan : List Char → List Char}
    {first? : List Char → Option Cut}
    (hrun : ∀ before text, Program.run pattern.program pattern.start #[] none 0 before text
      = (first? text).map (·.marks 0))
    (hscan : ∀ text, Rewrites write scan text (first? text)) (text : List Char) :
    pattern.replaceAll (fun groups => write ((groups.lookup 1).getD [])) text = scan text := by
  have hfind : ∀ before text, pattern.findAfter? before text = (first? text).map Cut.found := by
    intro before text
    have hmarks := hrun before text
    have hrewrites := hscan text
    cases hfirst : first? text with
    | none =>
        rw [hfirst] at hmarks
        rw [findAfter?, hmarks]
        rfl
    | some cut =>
        rw [hfirst] at hmarks hrewrites
        obtain ⟨rfl, _⟩ := hrewrites
        exact findAfter?_of_run hmarks
  refine replaceEach_eq (fun {before text} hfound => ?_) (fun {before text found} hfound => ?_)
    (by omega)
  · have hrewrites := hscan text
    rw [hfind, Option.map_eq_none_iff] at hfound
    rwa [hfound] at hrewrites
  · have hrewrites := hscan text
    rw [hfind, Option.map_eq_some_iff] at hfound
    obtain ⟨cut, hcut, rfl⟩ := hfound
    rw [hcut] at hrewrites
    obtain ⟨rfl, hopening, heq⟩ := hrewrites
    have hpositive := List.length_pos_iff.mpr hopening
    refine ⟨List.append_ne_nil_of_left_ne_nil hopening _, ?_, ?_⟩
    · simp only [Cut.found, Cut.text, List.length_append]
      omega
    · rw [heq, List.append_assoc]
      rfl

end

end OpenApi.Pattern
