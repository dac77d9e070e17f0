import OpenApi.Proofs.TypeExpr.Normal
import OpenApi.Proofs.TypeExpr.Reader
import OpenApi.Proofs.TypeExpr.Relabelling

/-!
# Reading what was written

Every normal type whose names and literals are words of the kind the writer expects is read back from
its text, with its integers turned into numbers (`read?_text`). So two such types have one text exactly
when they differ in nothing but that, `text_eq_iff`: no parentheses, optional mark, quoted field name or
escaped text makes two types look alike.

What stands in parentheses, between angle brackets or between braces starts over with a shorter text, and
so the length of the text bounds the recursion. The induction is on that bound, and its statement is about
factors (`ReadsAtoms`): a type is a union of intersections of factors, and only normal forms give the
same members when they are put together again.
-/

namespace OpenApi

namespace TypeExpr

/-! ## The texts of members and fields -/

theorem eq_intercalate {α : Type} {mark : List Char} {write : α → List Char}
    {writeAll : List α → List Char} (hnil : writeAll [] = []) (hone : ∀ a, writeAll [a] = write a)
    (hmore : ∀ a next rest,
      writeAll (a :: next :: rest) = write a ++ mark ++ writeAll (next :: rest))
    (items : List α) : writeAll items = mark.intercalate (items.map write) := by
  induction items with
  | nil => rw [hnil, List.map_nil, List.intercalate_nil]
  | cons a rest ih =>
      cases rest with
      | nil => rw [hone, List.map_singleton, List.intercalate_singleton]
      | cons next rest =>
          rw [hmore, ih]
          simp only [List.map_cons, List.intercalate_cons_cons]

theorem unionChars_eq (members : List TypeExpr) :
    unionChars members = bar.intercalate (members.map chars) :=
  eq_intercalate rfl (fun _ => rfl) (fun _ _ _ => rfl) members

/-- The text of a type as a factor of an intersection. -/
def factorChars (type : TypeExpr) : List Char := parenthesised type type.chars

theorem intersectionChars_eq (members : List TypeExpr) :
    intersectionChars members = ampersand.intercalate (members.map factorChars) :=
  eq_intercalate rfl (fun _ => rfl) (fun _ _ _ => rfl) members

theorem fieldsChars_eq (field : Field TypeExpr) (rest : List (Field TypeExpr)) :
    fieldChars field ++ fieldsChars rest
      = semicolon.intercalate ((field :: rest).map fieldChars) := by
  induction rest generalizing field with
  | nil =>
      rw [fieldsChars, List.append_nil]
      exact List.intercalate_singleton.symm
  | cons next rest ih =>
      rw [fieldsChars, List.append_assoc, ih next]
      simp only [List.map_cons, List.intercalate_cons_cons, List.append_assoc]
      rfl

/-- The text of a type is that of its members with bars between them. -/
theorem chars_eq_members (type : TypeExpr) :
    type.chars = bar.intercalate (type.unionMembers.map chars) := by
  cases type with
  | union members => exact unionChars_eq members
  | _ => exact List.intercalate_singleton.symm

/-- The text of what is no union is that of its factors with ampersands between them. -/
theorem chars_eq_factors {type : TypeExpr} (hu : type.isUnion = false) :
    type.chars = ampersand.intercalate (type.intersectionMembers.map factorChars) := by
  cases type with
  | intersection members => exact intersectionChars_eq members
  | union members => cases hu
  | _ => exact List.intercalate_singleton.symm

/-! ## Reading unions and intersections -/

/-- Integers become numbers. -/
def numeric : Relabelling where
  kind
    | .integer => .number
    | kind => kind

theorem collapse_map {α β : Type} (wrap : List β → β) (f : α → β) {members : List α}
    (h : 2 ≤ members.length) : collapse wrap (members.map f) = wrap (members.map f) := by
  match members with
  | [] => simp at h
  | [single] => simp at h
  | first :: second :: rest => rfl

theorem Normal.relabel_eq_members {type : TypeExpr} (h : type.Normal) (change : Relabelling) :
    type.relabel change = collapse union (type.unionMembers.map (relabel change)) := by
  cases type with
  | union members =>
      rw [relabel, relabelAll_eq_map, TypeExpr.unionMembers, collapse_map union _ h.self.1]
  | _ => rfl

theorem Normal.relabel_eq_factors {type : TypeExpr} (h : type.Normal) (change : Relabelling) :
    type.relabel change = collapse intersection (type.intersectionMembers.map (relabel change)) := by
  cases type with
  | intersection members =>
      rw [relabel, relabelAll_eq_map, TypeExpr.intersectionMembers,
        collapse_map intersection _ h.self.1]
  | _ => rfl

/-- A type that can be read back: it is normal, and its names and literals are legible. -/
structure Readable (type : TypeExpr) : Prop where
  normal : type.Normal
  legible : type.Everywhere IsLegible

theorem Everywhere.of_mem_unionMembers {p : TypeExpr → Prop} {type : TypeExpr}
    (h : type.Everywhere p) : ∀ member ∈ type.unionMembers, member.Everywhere p := by
  cases type with
  | union members => exact (everywhere_union.mp h).2
  | _ => exact List.forall_mem_singleton.mpr h

theorem Everywhere.of_mem_intersectionMembers {p : TypeExpr → Prop} {type : TypeExpr}
    (h : type.Everywhere p) : ∀ member ∈ type.intersectionMembers, member.Everywhere p := by
  cases type with
  | intersection members => exact (everywhere_intersection.mp h).2
  | _ => exact List.forall_mem_singleton.mpr h

theorem Reads.map {α β : Type} {reader : Reader α} {text : List Char} {value : α}
    {follow : List Char → Prop} (h : Reads reader text value follow) (f : α → β) :
    Reads (fun text => (reader text).map fun (value, rest) => (f value, rest)) text (f value)
      follow := by
  intro rest hrest
  dsimp only
  rw [h rest hrest]
  rfl

/-- What is read at a bound on the nesting: everything shorter than it that is a factor. -/
def ReadsAtoms (bound : Nat) : Prop :=
  ∀ type : TypeExpr, type.Readable → type.isIntersection = false → type.factorChars.length < bound →
    Reads (readAtom bound) type.factorChars (type.relabel numeric) EndsWord

section

variable {bound : Nat} {type : TypeExpr}

theorem ReadsAtoms.factors (h : ReadsAtoms bound) (hr : type.Readable) (hu : type.isUnion = false)
    (hn : type.chars.length < bound) :
    Reads (readFactors (readAtom bound) bound) type.chars (type.relabel numeric) EndsFactors := by
  obtain ⟨hne, hfactors⟩ := hr.normal.intersectionMembers
  have hmark : ∀ rest, EndsWord (ampersand ++ rest) := by
    rintro rest c ⟨⟩
    decide
  rw [chars_eq_factors hu] at hn ⊢
  rw [hr.normal.relabel_eq_factors]
  refine (reads_separated_of_length (by decide) hmark factorChars (relabel numeric) hne ?_ hn).map
    (collapse intersection)
  intro factor hf hlength
  exact h factor ⟨(hfactors factor hf).1, hr.legible.of_mem_intersectionMembers factor hf⟩
    (hfactors factor hf).2 hlength

theorem ReadsAtoms.members (h : ReadsAtoms bound) (hr : type.Readable)
    (hn : type.chars.length < bound) :
    Reads (readType (readAtom bound) bound) type.chars (type.relabel numeric) EndsType := by
  obtain ⟨hne, hmembers⟩ := hr.normal.unionMembers
  -- a bar starts with a space as an ampersand does; the second character tells them apart
  have hmark : ∀ rest, EndsFactors (bar ++ rest) := by
    intro rest
    refine ⟨?_, rfl⟩
    rintro c ⟨⟩
    decide
  rw [chars_eq_members] at hn ⊢
  rw [hr.normal.relabel_eq_members]
  refine (reads_separated_of_length (by decide) hmark chars (relabel numeric) hne ?_ hn).map
    (collapse union)
  intro member hm hlength
  exact h.factors ⟨(hmembers member hm).1, hr.legible.of_mem_unionMembers member hm⟩
    (hmembers member hm).2 hlength

/-! ## Reading what is in brackets -/

theorem Reads.array {item : Reader TypeExpr} {text : List Char} {type : TypeExpr}
    (h : Reads item text type EndsType) (follow : List Char → Prop) :
    Reads (readWord item) ("Array<".toList ++ text ++ ['>']) (array type) follow := by
  intro rest _
  have hword : ∀ c ∈ "Array".toList, isWordChar c = true := List.all_eq_true.mp (by decide)
  have htext : "Array<".toList ++ text ++ ['>'] ++ rest
      = "Array".toList ++ '<' :: (text ++ (['>'] ++ rest)) := by
    simp only [List.append_assoc]
    rfl
  have hangle : ∀ c ∈ ('<' :: (text ++ (['>'] ++ rest))).head?, isWordChar c = false := by
    rintro c ⟨⟩
    decide
  obtain ⟨htake, hdrop⟩ := takeWhile_append_of_all hword hangle
  have hskip : skip ['<'] ('<' :: (text ++ (['>'] ++ rest))) = some (text ++ (['>'] ++ rest)) := rfl
  have hitem := h (['>'] ++ rest) (endsType_closing _ (by decide) rest)
  unfold readWord
  rw [htext, htake, hdrop]
  simp only [hskip, if_true, hitem]
  rfl

theorem reads_readName (name : String) :
    Reads readName (fieldName name) name.toList
      fun rest => ∀ c ∈ rest.head?, (isNameStart c || c.isDigit) = false := by
  intro rest hrest
  unfold fieldName
  split_ifs with hbare
  · cases hcons : name.toList with
    | nil =>
        rw [hcons] at hbare
        cases hbare
    | cons c chars =>
        rw [hcons, isBareName, Bool.and_eq_true, List.all_eq_true] at hbare
        have hquote : c ≠ '\x27' := by
          rintro rfl
          exact absurd hbare.1 (by decide)
        have hall : ∀ d ∈ c :: chars, (isNameStart d || d.isDigit) = true := by
          rw [List.forall_mem_cons, hbare.1, Bool.true_or]
          exact ⟨rfl, hbare.2⟩
        obtain ⟨htake, hdrop⟩ := takeWhile_append_of_all hall hrest
        rw [List.cons_append] at htake hdrop ⊢
        rw [readName, if_neg hquote]
        dsimp only
        rw [htake, hdrop]
  · exact reads_unquote name.toList rest trivial

theorem reads_readMark (optional : Bool) :
    Reads readMark (if optional then ['?', ':', ' '] else [':', ' ']) optional fun _ => True := by
  intro rest _
  cases optional <;> rfl

theorem reads_readField {item : Reader TypeExpr} {field : Field TypeExpr} {type : TypeExpr}
    (h : Reads item field.type.chars type EndsType) :
    Reads (readField item) (fieldChars field) ⟨field.name, field.optional, type⟩ EndsType := by
  intro rest hrest
  obtain ⟨name, optional, fieldType⟩ := field
  have hname : ∀ c ∈ ((if optional then ['?', ':', ' '] else [':', ' '])
      ++ (fieldType.chars ++ rest)).head?, (isNameStart c || c.isDigit) = false := by
    cases optional <;> · rintro c ⟨⟩; decide
  unfold readField
  rw [fieldChars, List.append_assoc, List.append_assoc, reads_readName name _ hname]
  simp only [Option.bind_eq_bind, Option.bind_some, reads_readMark optional _ trivial, h rest hrest,
    String.ofList_toList]
  rfl

theorem reads_readRecord {item : Reader TypeExpr} {bound : Nat} {fields : List (Field TypeExpr)}
    {value : Field TypeExpr → Field TypeExpr} (hne : fields ≠ [])
    (hitems : ∀ field ∈ fields, (fieldChars field).length < bound →
      Reads (readField item) (fieldChars field) (value field) EndsType)
    (hn : (semicolon.intercalate (fields.map fieldChars)).length < bound)
    (follow : List Char → Prop) :
    Reads (readRecord (readField item) bound)
      (' ' :: (semicolon.intercalate (fields.map fieldChars) ++ [' ', '}']))
      (record (fields.map value)) follow := by
  intro rest _
  have hread := reads_separated_of_length (by decide) (endsType_closing semicolon (by decide))
    fieldChars value hne hitems hn ([' ', '}'] ++ rest) ⟨endsType_closing _ (by decide) rest, rfl⟩
  rw [List.cons_append, List.append_assoc]
  show (readSeparated semicolon (readField item) bound
    (semicolon.intercalate (fields.map fieldChars) ++ ([' ', '}'] ++ rest))).bind _ = _
  rw [hread]
  rfl

theorem record_chars_eq (first : Field TypeExpr) (others : List (Field TypeExpr)) :
    (record (first :: others)).chars = '{' :: ' ' ::
      (semicolon.intercalate ((first :: others).map fieldChars) ++ [' ', '}']) := by
  show ['{', ' '] ++ fieldChars first ++ fieldsChars others ++ [' ', '}'] = _
  rw [← fieldsChars_eq, List.append_assoc ['{', ' ']]
  rfl

theorem ReadsAtoms.braces (h : ReadsAtoms bound) {fields : List (Field TypeExpr)}
    (hr : ∀ field ∈ fields, field.type.Readable) (hn : (record fields).chars.length ≤ bound)
    (follow : List Char → Prop) : Reads (readAtom (bound + 1)) (record fields).chars
      ((record fields).relabel numeric) follow := by
  intro rest hrest
  cases fields with
  | nil => rfl
  | cons first others =>
      rw [record_chars_eq] at hn ⊢
      simp only [List.length_cons, List.length_append] at hn
      have hitems : ∀ field ∈ first :: others, (fieldChars field).length < bound →
          Reads (readField (readType (readAtom bound) bound)) (fieldChars field)
            ⟨field.name, numeric.optional field.optional, field.type.relabel numeric⟩ EndsType := by
        intro field hf hlength
        rw [fieldChars, List.length_append] at hlength
        exact reads_readField (h.members (hr field hf) (by omega))
      rw [relabel, relabelFields_eq_map]
      exact reads_readRecord (List.cons_ne_nil _ _) hitems (by omega) follow rest hrest

theorem ReadsAtoms.parentheses (h : ReadsAtoms bound) (hr : type.Readable)
    (hn : type.chars.length < bound) (follow : List Char → Prop) :
    Reads (readAtom (bound + 1)) ('(' :: (type.chars ++ [')'])) (type.relabel numeric) follow := by
  intro rest _
  have hread := h.members hr hn ([')'] ++ rest) (endsType_closing _ (by decide) rest)
  rw [List.cons_append, List.append_assoc]
  show (readType (readAtom bound) bound _).bind _ = _
  rw [hread]
  rfl

theorem ReadsAtoms.angles (h : ReadsAtoms bound) (hr : type.Readable)
    (hn : type.chars.length < bound) (follow : List Char → Prop) :
    Reads (readAtom (bound + 1)) (array type).chars (array (type.relabel numeric)) follow := by
  intro rest hrest
  have hread := (h.members hr hn).array follow rest hrest
  exact (readAtom_of_isWordChar (c := 'A') (by decide) bound _).trans hread

theorem reads_quoted (text : String) (follow : List Char → Prop) :
    Reads (readAtom (bound + 1)) (quoted text.toList) (stringLiteral text) follow := by
  intro rest _
  show (unquote (text.toList.flatMap escape ++ ['\x27'] ++ rest)).map _ = _
  rw [reads_unquote text.toList rest trivial, Option.map_some]
  dsimp only
  rw [String.ofList_toList]

theorem mem_keywordTypes (kind : Primitive) :
    (primitiveName kind, primitive (numeric.kind kind)) ∈ keywordTypes := by
  cases kind <;> simp [keywordTypes, primitiveName, numeric]

/-- What is nested is read at a bound smaller by one. -/
theorem ReadsAtoms.succ (h : ReadsAtoms bound) : ReadsAtoms (bound + 1) := by
  intro type hr hi hn
  cases type with
  | named name => exact reads_named hr.legible.self
  | primitive kind => exact reads_keyword (mem_keywordTypes kind)
  | stringLiteral text => exact reads_quoted text EndsWord
  | literal text => exact reads_literal hr.legible.self
  | null => exact reads_keyword (show ("null", null) ∈ keywordTypes by simp [keywordTypes])
  | unknown => exact reads_keyword (show ("unknown", unknown) ∈ keywordTypes by simp [keywordTypes])
  | openObject =>
      exact reads_keyword (show ("object", openObject) ∈ keywordTypes by simp [keywordTypes])
  | array item =>
      have hlength : item.chars.length < bound := by
        have htext : (array item).factorChars = "Array<".toList ++ item.chars ++ ['>'] := rfl
        rw [htext, List.length_append, List.length_append] at hn
        have hmarks : "Array<".toList.length = 6 := rfl
        omega
      exact h.angles ⟨(everywhere_array.mp hr.normal).2, (everywhere_array.mp hr.legible).2⟩ hlength
        EndsWord
  | record fields =>
      refine h.braces ?_ (Nat.le_of_lt_succ hn) EndsWord
      intro field hf
      exact ⟨(everywhere_record.mp hr.normal).2 field hf, (everywhere_record.mp hr.legible).2 field hf⟩
  | union members =>
      have hlength : (union members).chars.length < bound := by
        have htext : (union members).factorChars = '(' :: ((union members).chars ++ [')']) := rfl
        rw [htext, List.length_cons, List.length_append, List.length_singleton] at hn
        omega
      exact h.parentheses hr hlength EndsWord
  | intersection members => cases hi

theorem readsAtoms (bound : Nat) : ReadsAtoms bound := by
  induction bound with
  | zero =>
      -- no text is that short
      intro type _ _ hn
      exact absurd hn (Nat.not_lt_zero _)
  | succ bound ih => exact ih.succ

end

/-! ## Reading back -/

/-- The text of a readable type is read as that type, with its integers turned into numbers. -/
theorem read?_text {type : TypeExpr} (hr : type.Readable) :
    read? type.text = some (type.relabel numeric) := by
  have hends : EndsType [] := ⟨⟨by rintro c ⟨⟩, rfl⟩, rfl⟩
  have hread := (readsAtoms (type.chars.length + 1)).members hr (Nat.lt_succ_self _) [] hends
  rw [List.append_nil] at hread
  unfold read? text
  simp only [String.toList_ofList, hread]

/-! ## Integers are written as numbers -/

theorem primitiveName_numeric (kind : Primitive) :
    primitiveName (numeric.kind kind) = primitiveName kind := by
  cases kind <;> rfl

theorem parenthesised_relabel (type : TypeExpr) (change : Relabelling) (text : List Char) :
    parenthesised (type.relabel change) text = parenthesised type text := by
  cases type <;> rfl

mutual

theorem chars_numeric (type : TypeExpr) : (type.relabel numeric).chars = type.chars := by
  match type with
  | named _ | stringLiteral _ | literal _ | null | unknown | openObject => rfl
  | primitive kind =>
      show (primitiveName (numeric.kind kind)).toList = _
      rw [primitiveName_numeric]
      rfl
  | array item =>
      show "Array<".toList ++ (item.relabel numeric).chars ++ ['>'] = _
      rw [chars_numeric item]
      rfl
  | record fields =>
      have hfields := map_fieldChars_numeric fields
      cases fields with
      | nil => rfl
      | cons field rest =>
          rw [relabel, relabelFields, record_chars_eq, record_chars_eq, ← hfields, relabelFields]
  | union members =>
      show unionChars (relabelAll numeric members) = unionChars members
      rw [unionChars_eq, unionChars_eq, map_chars_numeric members]
  | intersection members =>
      show intersectionChars (relabelAll numeric members) = intersectionChars members
      rw [intersectionChars_eq, intersectionChars_eq, map_factorChars_numeric members]

theorem map_chars_numeric (types : List TypeExpr) :
    (relabelAll numeric types).map chars = types.map chars := by
  match types with
  | [] => rfl
  | type :: rest =>
      rw [relabelAll, List.map_cons, List.map_cons, chars_numeric type, map_chars_numeric rest]

theorem map_factorChars_numeric (types : List TypeExpr) :
    (relabelAll numeric types).map factorChars = types.map factorChars := by
  match types with
  | [] => rfl
  | type :: rest =>
      rw [relabelAll, List.map_cons, List.map_cons, map_factorChars_numeric rest, factorChars,
        factorChars, parenthesised_relabel, chars_numeric type]

theorem map_fieldChars_numeric (fields : List (Field TypeExpr)) :
    (relabelFields numeric fields).map fieldChars = fields.map fieldChars := by
  match fields with
  | [] => rfl
  | ⟨name, optional, type⟩ :: rest =>
      rw [relabelFields, List.map_cons, List.map_cons, map_fieldChars_numeric rest, fieldChars,
        fieldChars, chars_numeric type]
      rfl

end

/-! ## Types with one text -/

/-- Two types in normal form, with legible names and literals, are written alike exactly when they are
the same but for integers in the place of numbers. -/
theorem text_eq_iff {type type' : TypeExpr} (hn : type.Normal) (hl : type.Everywhere IsLegible)
    (hn' : type'.Normal) (hl' : type'.Everywhere IsLegible) :
    type.text = type'.text ↔ type.relabel numeric = type'.relabel numeric := by
  constructor
  · intro h
    have hread := read?_text ⟨hn, hl⟩
    rw [h, read?_text ⟨hn', hl'⟩] at hread
    exact (Option.some.inj hread).symm
  · intro h
    have hchars : type.chars = type'.chars := by
      rw [← chars_numeric type, h, chars_numeric type']
    unfold text
    rw [hchars]

/-- A union inside an intersection, with a field name and a text that look like written types. -/
def parcel (weight : Primitive) : TypeExpr :=
  intersection [
    union [named "Shop.Parcel", null],
    record [
      ⟨"weight", false, primitive weight⟩,
      ⟨"b?: 'x'", true, array (union [stringLiteral "c' | null", literal "-1.5e+3"])⟩]]

theorem text_eq_iff_parcel :
    ((parcel .integer).Normal ∧ (parcel .integer).Everywhere IsLegible) ∧
    ((parcel .number).Normal ∧ (parcel .number).Everywhere IsLegible) ∧
    ((parcel .string).Normal ∧ (parcel .string).Everywhere IsLegible) ∧
    (parcel .integer).text = (parcel .number).text ∧
    (parcel .integer).text ≠ (parcel .string).text := by
  have hinteger : (parcel .integer).Normal ∧ (parcel .integer).Everywhere IsLegible := by decide
  have hnumber : (parcel .number).Normal ∧ (parcel .number).Everywhere IsLegible := by decide
  have hstring : (parcel .string).Normal ∧ (parcel .string).Everywhere IsLegible := by decide
  refine ⟨hinteger, hnumber, hstring, ?_, ?_⟩
  · exact (text_eq_iff hinteger.1 hinteger.2 hnumber.1 hnumber.2).mpr rfl
  · intro htext
    have htypes := (text_eq_iff hinteger.1 hinteger.2 hstring.1 hstring.2).mp htext
    simp [parcel, relabel, relabelAll, relabelFields, numeric] at htypes

end TypeExpr

end OpenApi
