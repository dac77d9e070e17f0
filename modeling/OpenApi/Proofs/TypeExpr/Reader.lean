import Mathlib.Tactic.SplitIfs
import OpenApi.Proofs.Schema.Outline

/-!
# A reader of types

The written form of a type leaves out most parentheses, puts most names in no quotes and calls integers
numbers. This reader goes the other way. Which types it reads back is another matter: it takes any word
for a name or a bare literal, and a name that is a keyword it takes for the keyword.

A reader gives a value for a text whatever follows, under a condition on what does (`Reads`). A word ends
before any character that no word has; a factor of an intersection ends there too, but the intersection
goes on if an ampersand follows, and the union if a bar does. Several items with a mark between them are
read when each is (`reads_separated`).
-/

namespace OpenApi

namespace TypeExpr

/-! ## Words -/

/-- The words that stand for a type of their own. -/
def keywordTypes : List (String × TypeExpr) :=
  [("string", primitive .string), ("number", primitive .number), ("boolean", primitive .boolean),
    ("null", null), ("unknown", unknown), ("object", openObject)]

/-- Identifiers separated by dots. -/
def IsDotted (text : List Char) : Prop := ∀ piece ∈ Text.splitAt '.' text, isBareName piece = true

instance : DecidablePred IsDotted := fun text =>
  inferInstanceAs (Decidable (∀ piece ∈ Text.splitAt '.' text, isBareName piece = true))

/-- A character of a numeral. -/
def isNumeralChar (c : Char) : Bool := c.isDigit || ['+', '-', '.', 'e', 'E'].contains c

/-- A numeral starts with a digit or a minus sign. -/
def isNumeral : List Char → Bool
  | c :: rest => (c.isDigit || c = '-') && (c :: rest).all isNumeralChar
  | [] => false

/-- If a type is a name, it is no keyword and consists of identifiers separated by dots; if it is a bare
literal, it is a numeral. -/
def IsLegible : TypeExpr → Prop
  | named name => IsDotted name.toList ∧ name ∉ keywordTypes.map (·.1)
  | literal text => isNumeral text.toList = true
  | _ => True

instance : DecidablePred IsLegible
  | named name => inferInstanceAs (Decidable (IsDotted name.toList ∧ name ∉ keywordTypes.map (·.1)))
  | literal text => inferInstanceAs (Decidable (isNumeral text.toList = true))
  | primitive _ | stringLiteral _ | null | unknown | openObject | array _ | record _ | union _
  | intersection _ => inferInstanceAs (Decidable True)

/-- A character of a word: of a name or of a numeral. -/
def isWordChar (c : Char) : Bool := isNameStart c || isNumeralChar c

/-! ## The reader -/

/-- What reads a value off the front of a text, and gives it with the rest. -/
abbrev Reader (α : Type) := List Char → Option (α × List Char)

/-- Takes a mark off the front of a text. -/
def skip (mark text : List Char) : Option (List Char) :=
  if mark.isPrefixOf text then some (text.drop mark.length) else none

/-- Reads what stands between quotes, the opening quote being read already. -/
def unquote : Reader (List Char)
  | [] => none
  | c :: rest =>
    if c = '\x27' then some ([], rest)
    else if c = '\\' then
      match rest with
      | [] => none
      | d :: rest =>
        (unquote rest).map fun (text, rest) => ((if d = 'n' then '\n' else d) :: text, rest)
    else (unquote rest).map fun (text, rest) => (c :: text, rest)

/-- Reads one item or several with a mark between them, at most as many as the bound says. -/
def readSeparated {α : Type} (mark : List Char) (item : Reader α) : Nat → Reader (List α)
  | 0, _ => none
  | bound + 1, text => do
    let (first, rest) ← item text
    match skip mark rest with
    | none => return ([first], rest)
    | some rest =>
      let (others, rest) ← readSeparated mark item bound rest
      return (first :: others, rest)

/-- What stands between the members of a union. -/
def bar : List Char := [' ', '|', ' ']

/-- What stands between the members of an intersection. -/
def ampersand : List Char := [' ', '&', ' ']

/-- What stands between the fields of a record. -/
def semicolon : List Char := [';', ' ']

/-- Reads an intersection, or one of its factors alone. -/
def readFactors (atom : Reader TypeExpr) (bound : Nat) : Reader TypeExpr := fun text =>
  (readSeparated ampersand atom bound text).map fun (types, rest) =>
    (collapse intersection types, rest)

/-- Reads a union, or one of its members alone. -/
def readType (atom : Reader TypeExpr) (bound : Nat) : Reader TypeExpr := fun text =>
  (readSeparated bar (readFactors atom bound) bound text).map fun (types, rest) =>
    (collapse union types, rest)

/-- Reads the name of a field. -/
def readName : Reader (List Char)
  | [] => none
  | c :: rest =>
    if c = '\x27' then unquote rest
    else
      let isNameChar := fun c => isNameStart c || c.isDigit
      some ((c :: rest).takeWhile isNameChar, (c :: rest).dropWhile isNameChar)

/-- Reads what stands between the name of a field and its type. -/
def readMark : Reader Bool := fun text =>
  match skip ['?', ':', ' '] text with
  | some rest => some (true, rest)
  | none => (skip [':', ' '] text).map fun rest => (false, rest)

/-- Reads a field. -/
def readField (type : Reader TypeExpr) : Reader (Field TypeExpr) := fun text => do
  let (name, rest) ← readName text
  let (optional, rest) ← readMark rest
  let (type, rest) ← type rest
  return (⟨String.ofList name, optional, type⟩, rest)

/-- The type that a word stands for: that of a keyword, a name if it starts as names do, else a bare
literal. -/
def ofWord : List Char → Option TypeExpr
  | [] => none
  | c :: rest =>
    let word := String.ofList (c :: rest)
    some ((keywordTypes.lookup word).getD (if isNameStart c then named word else literal word))

/-- Reads a word, or the type of arrays. -/
def readWord (item : Reader TypeExpr) : Reader TypeExpr := fun text => do
  let word := text.takeWhile isWordChar
  let rest := text.dropWhile isWordChar
  match skip ['<'] rest with
  | none => return (← ofWord word, rest)
  | some rest =>
    if word = "Array".toList then
      let (item, rest) ← item rest
      return (array item, ← skip ['>'] rest)
    else none

/-- Reads a record, the opening brace being read already. -/
def readRecord (field : Reader (Field TypeExpr)) (bound : Nat) : Reader TypeExpr := fun text =>
  match skip ['}'] text with
  | some rest => some (record [], rest)
  | none => do
    let (fields, rest) ← readSeparated semicolon field bound (← skip [' '] text)
    return (record fields, ← skip [' ', '}'] rest)

/-- Reads a type that needs no parentheses as a factor, or one in parentheses. The bound is on the
nesting, and more than the length of the text is enough. -/
def readAtom : Nat → Reader TypeExpr
  | 0, _ => none
  | _ + 1, [] => none
  | bound + 1, c :: rest =>
    let type := readType (readAtom bound) bound
    if c = '(' then do
      let (type, rest) ← type rest
      return (type, ← skip [')'] rest)
    else if c = '{' then readRecord (readField type) bound rest
    else if c = '\x27' then
      (unquote rest).map fun (text, rest) => (stringLiteral (String.ofList text), rest)
    else readWord type (c :: rest)

/-- Reads a text as a type. -/
def read? (text : String) : Option TypeExpr :=
  let bound := text.toList.length + 1
  match readType (readAtom bound) bound text.toList with
  | some (type, []) => some type
  | _ => none

/-! ## Reading marks, quotes and words -/

/-- A reader gives back the value of a text, whatever follows the text that satisfies the condition. -/
def Reads {α : Type} (reader : Reader α) (text : List Char) (value : α)
    (follow : List Char → Prop) : Prop :=
  ∀ rest, follow rest → reader (text ++ rest) = some (value, rest)

theorem skip_append (mark rest : List Char) : skip mark (mark ++ rest) = some rest := by
  unfold skip
  rw [if_pos (List.isPrefixOf_iff_prefix.mpr (List.prefix_append mark rest)), List.drop_left]

theorem unquote_closing (rest : List Char) : unquote ('\x27' :: rest) = some ([], rest) := by
  rw [unquote.eq_def]
  rfl

theorem unquote_escaped (c : Char) (rest : List Char) : unquote ('\\' :: c :: rest)
    = (unquote rest).map fun (text, rest) => ((if c = 'n' then '\n' else c) :: text, rest) := by
  rw [unquote.eq_def]
  rfl

theorem unquote_plain {c : Char} (hquote : c ≠ '\x27') (hslash : c ≠ '\\') (rest : List Char) :
    unquote (c :: rest) = (unquote rest).map fun (text, rest) => (c :: text, rest) := by
  rw [unquote.eq_def]
  simp only [if_neg hquote, if_neg hslash]

theorem reads_unquote (text : List Char) :
    Reads unquote (text.flatMap escape ++ ['\x27']) text fun _ => True := by
  intro rest _
  rw [List.append_assoc]
  induction text with
  | nil => exact unquote_closing rest
  | cons c text ih =>
      rw [List.flatMap_cons, List.append_assoc]
      unfold escape
      split_ifs with hslash hquote hline
      · subst hslash
        exact (unquote_escaped _ _).trans (congrArg _ ih)
      · subst hquote
        exact (unquote_escaped _ _).trans (congrArg _ ih)
      · subst hline
        exact (unquote_escaped _ _).trans (congrArg _ ih)
      · exact (unquote_plain hquote hslash _).trans (congrArg _ ih)

/-- What is taken of a text that holds only such characters and ends before another one. -/
theorem takeWhile_append_of_all {p : Char → Bool} {text rest : List Char}
    (hall : ∀ c ∈ text, p c = true) (hrest : ∀ c ∈ rest.head?, p c = false) :
    (text ++ rest).takeWhile p = text ∧ (text ++ rest).dropWhile p = rest := by
  rw [List.takeWhile_append_of_pos hall, List.dropWhile_append_of_pos hall]
  cases rest with
  | nil => exact ⟨List.append_nil text, rfl⟩
  | cons c rest =>
      have hc : ¬p c = true := by rw [hrest c rfl]; exact Bool.false_ne_true
      rw [List.takeWhile_cons_of_neg hc, List.dropWhile_cons_of_neg hc, List.append_nil]
      exact ⟨rfl, rfl⟩

/-- A word does not go on, and is not the name of a generic type. -/
def EndsWord (rest : List Char) : Prop := ∀ c ∈ rest.head?, isWordChar c = false ∧ c ≠ '<'

/-- Neither does an intersection go on. -/
def EndsFactors (rest : List Char) : Prop := EndsWord rest ∧ skip ampersand rest = none

/-- Nor a union. -/
def EndsType (rest : List Char) : Prop := EndsFactors rest ∧ skip bar rest = none

/-- Whatever closes a type, or comes after the type of a field, ends it. -/
theorem endsType_closing : ∀ mark ∈ [['>'], [')'], [' ', '}'], semicolon], ∀ rest : List Char,
    EndsType (mark ++ rest) := by
  intro mark hmark rest
  simp only [List.mem_cons, List.not_mem_nil, or_false] at hmark
  rcases hmark with rfl | rfl | rfl | rfl <;>
    exact ⟨⟨by rintro c ⟨⟩; decide, rfl⟩, rfl⟩

/-! ## Reading words -/

theorem skip_of_ne {c d : Char} (h : c ≠ d) (mark rest : List Char) :
    skip (c :: mark) (d :: rest) = none := by
  have hne : (c == d) = false := beq_eq_false_iff_ne.mpr h
  unfold skip
  rw [List.isPrefixOf, hne, Bool.false_and]
  rfl

theorem EndsWord.skip_eq_none {rest : List Char} (h : EndsWord rest) : skip ['<'] rest = none := by
  cases rest with
  | nil => rfl
  | cons c rest => exact skip_of_ne (Ne.symm (h c rfl).2) [] rest

theorem reads_readWord {item : Reader TypeExpr} {word : List Char} {type : TypeExpr}
    (hall : ∀ c ∈ word, isWordChar c = true) (htype : ofWord word = some type) :
    Reads (readWord item) word type EndsWord := by
  intro rest hrest
  obtain ⟨htake, hdrop⟩ := takeWhile_append_of_all hall fun c hc => (hrest c hc).1
  unfold readWord
  simp only [htake, hdrop, hrest.skip_eq_none, htype]
  rfl

/-- What starts with a character of a word is read as a word. -/
theorem readAtom_of_isWordChar {c : Char} (hc : isWordChar c = true) (bound : Nat)
    (rest : List Char) : readAtom (bound + 1) (c :: rest)
      = readWord (readType (readAtom bound) bound) (c :: rest) := by
  have hround : c ≠ '(' := by
    rintro rfl
    exact absurd hc (by decide)
  have hcurly : c ≠ '{' := by
    rintro rfl
    exact absurd hc (by decide)
  have hquote : c ≠ '\x27' := by
    rintro rfl
    exact absurd hc (by decide)
  rw [readAtom, if_neg hround, if_neg hcurly, if_neg hquote]

theorem reads_word {bound : Nat} {word : List Char} {type : TypeExpr}
    (hall : ∀ c ∈ word, isWordChar c = true) (htype : ofWord word = some type) :
    Reads (readAtom (bound + 1)) word type EndsWord := by
  intro rest hrest
  cases word with
  | nil => cases htype
  | cons c word =>
      rw [List.cons_append, readAtom_of_isWordChar (hall c List.mem_cons_self)]
      exact reads_readWord hall htype rest hrest

theorem ofWord_toList {word : String} {c : Char} {rest : List Char} (h : word.toList = c :: rest) :
    ofWord word.toList
      = some ((keywordTypes.lookup word).getD (if isNameStart c then named word else literal word)) := by
  have hword : String.ofList (c :: rest) = word := by rw [← h, String.ofList_toList]
  rw [h, ofWord, hword]

/-- Keywords are words, and start as names do. -/
theorem keywords_spec : (keywordTypes.all fun entry =>
    entry.1.toList.all isWordChar && entry.1.toList.head?.any isNameStart) = true := by
  decide

theorem isWordChar_of_mem_keyword {entry : String × TypeExpr} (h : entry ∈ keywordTypes) :
    ∀ c ∈ entry.1.toList, isWordChar c = true := by
  have hspec := List.all_eq_true.mp keywords_spec entry h
  rw [Bool.and_eq_true] at hspec
  exact List.all_eq_true.mp hspec.1

theorem isNameStart_of_keyword {entry : String × TypeExpr} (h : entry ∈ keywordTypes) {c : Char}
    {rest : List Char} (hcons : entry.1.toList = c :: rest) : isNameStart c = true := by
  have hspec := List.all_eq_true.mp keywords_spec entry h
  rw [Bool.and_eq_true, hcons] at hspec
  exact hspec.2

theorem reads_keyword {bound : Nat} {word : String} {type : TypeExpr}
    (h : (word, type) ∈ keywordTypes) : Reads (readAtom (bound + 1)) word.toList type EndsWord := by
  refine reads_word (isWordChar_of_mem_keyword h) ?_
  simp only [keywordTypes, List.mem_cons, List.not_mem_nil, or_false, Prod.mk.injEq] at h
  rcases h with ⟨rfl, rfl⟩ | ⟨rfl, rfl⟩ | ⟨rfl, rfl⟩ | ⟨rfl, rfl⟩ | ⟨rfl, rfl⟩ | ⟨rfl, rfl⟩ <;> rfl

theorem ofWord_of_ne_keywords {word : String} {c : Char} {rest : List Char}
    (hcons : word.toList = c :: rest) (hne : ∀ entry ∈ keywordTypes, entry.1 ≠ word) :
    ofWord word.toList = some (if isNameStart c then named word else literal word) := by
  have hlookup : keywordTypes.lookup word = none :=
    List.lookup_eq_none_iff.mpr fun entry hentry => bne_iff_ne.mpr (Ne.symm (hne entry hentry))
  rw [ofWord_toList hcons, hlookup]
  rfl

/-- What is not the mark joins the first piece of the rest. -/
theorem exists_splitAt_cons {mark c : Char} (hc : c ≠ mark) (rest : List Char) :
    ∃ piece pieces, Text.splitAt mark rest = piece :: pieces ∧
      Text.splitAt mark (c :: rest) = (c :: piece) :: pieces := by
  obtain ⟨piece, pieces, hrest⟩ := List.exists_cons_of_ne_nil (Text.splitAt_ne_nil mark rest)
  refine ⟨piece, pieces, hrest, ?_⟩
  rw [Text.splitAt, if_neg hc, hrest]

/-- Every character but the marks is in a piece. -/
theorem exists_mem_splitAt {mark c : Char} {text : List Char} (h : c ∈ text) (hc : c ≠ mark) :
    ∃ piece ∈ Text.splitAt mark text, c ∈ piece := by
  induction text with
  | nil => cases h
  | cons d rest ih =>
      by_cases hd : d = mark
      · subst hd
        have hrest : c ∈ rest := List.mem_of_ne_of_mem hc h
        obtain ⟨piece, hpiece, hmem⟩ := ih hrest
        rw [Text.splitAt, if_pos rfl]
        exact ⟨piece, List.mem_cons_of_mem _ hpiece, hmem⟩
      · obtain ⟨first, pieces, hrest, hsplit⟩ := exists_splitAt_cons hd rest
        rw [hsplit]
        rcases List.mem_cons.mp h with rfl | h
        · exact ⟨_, List.mem_cons_self, List.mem_cons_self⟩
        · obtain ⟨piece, hpiece, hmem⟩ := ih h
          rw [hrest] at hpiece
          rcases List.mem_cons.mp hpiece with rfl | hpiece
          · exact ⟨_, List.mem_cons_self, List.mem_cons_of_mem _ hmem⟩
          · exact ⟨piece, List.mem_cons_of_mem _ hpiece, hmem⟩

/-- A dotted name starts as names do. -/
theorem IsDotted.starts {text : List Char} (h : IsDotted text) :
    ∃ c rest, text = c :: rest ∧ isNameStart c = true := by
  cases text with
  | nil => exact absurd (h [] List.mem_cons_self) Bool.false_ne_true
  | cons c rest =>
      by_cases hc : c = '.'
      · have hempty : [] ∈ Text.splitAt '.' (c :: rest) := by
          rw [Text.splitAt, if_pos hc]
          exact List.mem_cons_self
        exact absurd (h [] hempty) Bool.false_ne_true
      · obtain ⟨piece, pieces, -, hsplit⟩ := exists_splitAt_cons hc rest
        have hpiece := h (c :: piece) (by rw [hsplit]; exact List.mem_cons_self)
        rw [isBareName, Bool.and_eq_true] at hpiece
        exact ⟨c, rest, rfl, hpiece.1⟩

theorem isWordChar_of_mem_bareName {piece : List Char} (h : isBareName piece = true) {c : Char}
    (hc : c ∈ piece) : isWordChar c = true := by
  cases piece with
  | nil => cases hc
  | cons d piece =>
      rw [isBareName, Bool.and_eq_true, List.all_eq_true] at h
      have hname : (isNameStart c || c.isDigit) = true := by
        rcases List.mem_cons.mp hc with rfl | hc
        · rw [h.1, Bool.true_or]
        · exact h.2 c hc
      rw [isWordChar, isNumeralChar, ← Bool.or_assoc, hname, Bool.true_or]

/-- All characters of a dotted name are those of words. -/
theorem IsDotted.isWordChar {text : List Char} (h : IsDotted text) :
    ∀ c ∈ text, isWordChar c = true := by
  intro c hc
  by_cases hdot : c = '.'
  · subst hdot
    decide
  · obtain ⟨piece, hpiece, hmem⟩ := exists_mem_splitAt hc hdot
    exact isWordChar_of_mem_bareName (h piece hpiece) hmem

theorem reads_named {bound : Nat} {name : String} (h : IsLegible (named name)) :
    Reads (readAtom (bound + 1)) name.toList (named name) EndsWord := by
  obtain ⟨hdotted, hkeyword⟩ := h
  obtain ⟨c, rest, hcons, hstart⟩ := hdotted.starts
  have hne : ∀ entry ∈ keywordTypes, entry.1 ≠ name := by
    rintro entry hentry rfl
    exact hkeyword (List.mem_map_of_mem hentry)
  refine reads_word hdotted.isWordChar ?_
  rw [ofWord_of_ne_keywords hcons hne, hstart]
  rfl

/-- Digits come before all letters. -/
theorem isAlpha_eq_false_of_isDigit {c : Char} (h : c.isDigit = true) : c.isAlpha = false := by
  have hdigit : c.val.toNat ≤ 57 := of_decide_eq_true (Bool.and_eq_true_iff.mp h).2
  have hupper : c.isUpper = false := by
    refine decide_eq_false ?_
    rintro ⟨hge, -⟩
    have hnat : 65 ≤ c.val.toNat := hge
    omega
  have hlower : decide (c.val ≥ 'a'.val) = false := by
    refine decide_eq_false ?_
    intro hge
    have hnat : 97 ≤ c.val.toNat := hge
    omega
  show (c.isUpper || (decide (c.val ≥ 'a'.val) && decide (c.val ≤ 'z'.val))) = false
  rw [hupper, hlower]
  rfl

/-- No digit and no minus sign starts a name. -/
theorem isNameStart_of_startsNumeral {c : Char} (h : (c.isDigit || c = '-') = true) :
    isNameStart c = false := by
  rw [Bool.or_eq_true, decide_eq_true_eq] at h
  rcases h with hdigit | rfl
  · have hne : c ≠ '_' ∧ c ≠ '$' := by
      constructor <;> rintro rfl <;> exact absurd hdigit (by decide)
    rw [isNameStart, isAlpha_eq_false_of_isDigit hdigit, decide_eq_false hne.1,
      decide_eq_false hne.2]
    rfl
  · decide

theorem reads_literal {bound : Nat} {text : String} (h : IsLegible (literal text)) :
    Reads (readAtom (bound + 1)) text.toList (literal text) EndsWord := by
  rw [IsLegible] at h
  cases hcons : text.toList with
  | nil =>
      rw [hcons] at h
      cases h
  | cons c rest =>
      rw [hcons, isNumeral, Bool.and_eq_true, List.all_eq_true] at h
      obtain ⟨hfirst, hchars⟩ := h
      have hstart := isNameStart_of_startsNumeral hfirst
      have hne : ∀ entry ∈ keywordTypes, entry.1 ≠ text := by
        rintro entry hentry rfl
        exact Bool.false_ne_true (hstart.symm.trans (isNameStart_of_keyword hentry hcons))
      have hall : ∀ d ∈ c :: rest, isWordChar d = true := by
        intro d hd
        rw [isWordChar, hchars d hd, Bool.or_true]
      refine reads_word hall ?_
      rw [← hcons, ofWord_of_ne_keywords hcons hne, hstart]
      rfl

/-! ## Reading what is separated -/

theorem length_le_intercalate {α : Type} {mark : List α} (hmark : mark ≠ []) (texts : List (List α)) :
    texts.length ≤ (mark.intercalate texts).length + 1 := by
  have hpos : 0 < mark.length := List.length_pos_iff.mpr hmark
  induction texts with
  | nil => simp
  | cons text rest ih =>
      cases rest with
      | nil => simp
      | cons next rest =>
          rw [List.intercalate_cons_cons]
          simp only [List.length_append, List.length_cons] at ih ⊢
          omega

theorem length_le_of_mem_intercalate {α : Type} (mark : List α) {texts : List (List α)}
    {text : List α} (h : text ∈ texts) : text.length ≤ (mark.intercalate texts).length := by
  induction texts with
  | nil => cases h
  | cons first rest ih =>
      cases rest with
      | nil =>
          have htext : text = first := List.mem_singleton.mp h
          subst htext
          exact Nat.le_of_eq (congrArg List.length List.intercalate_singleton.symm)
      | cons next rest =>
          rw [List.intercalate_cons_cons]
          simp only [List.length_append]
          rcases List.mem_cons.mp h with rfl | h
          · omega
          · have hle := ih h
            omega

/-- If items are read before the mark and at the end, several are read with the mark between them, up to
where the mark does not follow. -/
theorem reads_separated {α β : Type} {mark : List Char} {item : Reader β}
    {follow : List Char → Prop} (hmark : ∀ rest, follow (mark ++ rest)) (write : α → List Char)
    (value : α → β) {items : List α} (hne : items ≠ [])
    (hitems : ∀ a ∈ items, Reads item (write a) (value a) follow) {bound : Nat}
    (hbound : items.length ≤ bound) :
    Reads (readSeparated mark item bound) (mark.intercalate (items.map write)) (items.map value)
      fun rest => follow rest ∧ skip mark rest = none := by
  rintro rest ⟨hfollow, hskip⟩
  induction items generalizing bound with
  | nil => exact absurd rfl hne
  | cons first others ih =>
      rw [List.forall_mem_cons] at hitems
      cases bound with
      | zero => simp at hbound
      | succ bound =>
          cases others with
          | nil =>
              rw [List.map_singleton, List.intercalate_singleton, readSeparated,
                hitems.1 rest hfollow]
              -- the last item: what follows is not the mark
              show (match skip mark rest with
                | none => some ([value first], rest)
                | some rest => _) = _
              rw [hskip]
              rfl
          | cons second others =>
              have hrest := ih (List.cons_ne_nil _ _) hitems.2 (Nat.le_of_succ_le_succ hbound)
              rw [List.map_cons, List.map_cons, List.intercalate_cons_cons, List.append_assoc,
                List.append_assoc, readSeparated, hitems.1 _ (hmark _)]
              -- the mark follows, and after it the other items with what follows them
              show (match skip mark (mark ++ _) with
                | none => _
                | some rest => (readSeparated mark item bound rest).bind _) = _
              rw [skip_append]
              show (readSeparated mark item bound _).bind _ = _
              rw [← List.map_cons, hrest]
              rfl

/-- The same with one bound, on the length of the text: it bounds the number of items, and each of their
texts. -/
theorem reads_separated_of_length {α β : Type} {mark : List Char} {item : Reader β} {bound : Nat}
    {follow : List Char → Prop} (hne : mark ≠ []) (hmark : ∀ rest, follow (mark ++ rest))
    (write : α → List Char) (value : α → β) {items : List α} (hitems : items ≠ [])
    (hread : ∀ a ∈ items, (write a).length < bound → Reads item (write a) (value a) follow)
    (hn : (mark.intercalate (items.map write)).length < bound) :
    Reads (readSeparated mark item bound) (mark.intercalate (items.map write)) (items.map value)
      fun rest => follow rest ∧ skip mark rest = none := by
  have hbound : items.length ≤ bound := by
    have hlength := length_le_intercalate hne (items.map write)
    rw [List.length_map] at hlength
    omega
  refine reads_separated hmark write value hitems ?_ hbound
  intro a ha
  have hlength := length_le_of_mem_intercalate mark (List.mem_map_of_mem (f := write) ha)
  exact hread a ha (by omega)

end TypeExpr

end OpenApi
