import OpenApi.Proofs.Pointer.RoundTrip

/-!
# Which names are read back

Writing a name as a token escapes `~` and slashes but no `%`, whereas reading a token undoes
percent-escapes before anything else. So a name that holds an escape, a `%` and two hexadecimal digits,
is read as another one. `decodeToken_encodeToken_iff` says that this is the only way to fail: all other
names are read back, also those with a `%` that starts no escape.

A name with an escape cannot be read back because reading makes it shorter. Three characters become
one byte, bytes become at most as many characters, and undoing what writing did to the rest gives the
length that it had.
-/

namespace OpenApi

namespace Text

/-- Whether `%` and two hexadecimal digits stand somewhere in a text. -/
def hasEscape : List Char → Bool
  | [] => false
  | '%' :: a :: b :: rest => (hexByte? a b).isSome || hasEscape (a :: b :: rest)
  | _ :: rest => hasEscape rest

/-- No escape stands at the start of a text. -/
def StartsPlain (text : List Char) : Prop :=
  ∀ a b rest, text = '%' :: a :: b :: rest → hexByte? a b = none

theorem hasEscape_cons {c : Char} {rest : List Char} (h : StartsPlain (c :: rest)) :
    hasEscape (c :: rest) = hasEscape rest := by
  rw [hasEscape.eq_def]
  split
  · next heq => cases heq
  · next a b more heq =>
      cases heq
      rw [h a b more rfl, Option.isSome_none, Bool.false_or]
  · next heq => rw [(List.cons.inj heq).2]

theorem startsPlain_of_not_hasEscape {text : List Char} (h : hasEscape text = false) :
    StartsPlain text := by
  rintro a b rest rfl
  rw [hasEscape, Bool.or_eq_false_iff, Option.isSome_eq_false_iff, Option.isNone_iff_eq_none] at h
  exact h.1

/-- A character that starts no escape is read as itself. -/
theorem decodeRun_cons (run : List UInt8) {c : Char} {rest : List Char}
    (h : StartsPlain (c :: rest)) :
    decodeRun run (c :: rest) = decodeLossy run ++ c :: decodeRun [] rest := by
  rw [decodeRun.eq_def]
  split
  · next heq => cases heq
  · next a b more heq =>
      cases heq
      rw [h a b more rfl]
  · next heq =>
      cases heq
      rfl

theorem startsPlain_of_ne {c : Char} (h : c ≠ '%') (rest : List Char) : StartsPlain (c :: rest) := by
  intro a b more heq
  exact absurd (List.cons.inj heq).1 h

/-- A text starts with an escape or with none. -/
theorem startsPlain_or (text : List Char) :
    StartsPlain text ∨
      ∃ a b rest byte, text = '%' :: a :: b :: rest ∧ hexByte? a b = some byte := by
  match text with
  | [] | [_] | [_, _] => exact .inl fun _ _ _ heq => by simp at heq
  | c :: a :: b :: rest =>
    by_cases hc : c = '%'
    · cases hbyte : hexByte? a b with
      | some byte => exact .inr ⟨a, b, rest, byte, by rw [hc], hbyte⟩
      | none =>
          refine .inl fun _ _ _ heq => ?_
          cases heq
          exact hbyte
    · exact .inl (startsPlain_of_ne hc _)

theorem hasEscape_of_byte {a b : Char} {byte : UInt8} (h : hexByte? a b = some byte)
    (rest : List Char) : hasEscape ('%' :: a :: b :: rest) = true := by
  rw [hasEscape, h]
  rfl

theorem hasEscape_of_notMem {text : List Char} (h : '%' ∉ text) : hasEscape text = false := by
  induction text with
  | nil => rfl
  | cons c rest ih =>
      rw [List.mem_cons, not_or] at h
      rw [hasEscape_cons (startsPlain_of_ne (Ne.symm h.1) rest), ih h.2]

/-- Both digits of a byte are hexadecimal. -/
theorem isSome_of_hexByte? {a b : Char} {byte : UInt8} (h : hexByte? a b = some byte) :
    (hexValue? a).isSome = true ∧ (hexValue? b).isSome = true := by
  obtain ⟨high, ha, h⟩ := Option.bind_eq_some_iff.mp h
  obtain ⟨low, hb, _⟩ := Option.bind_eq_some_iff.mp h
  exact ⟨by rw [ha]; rfl, by rw [hb]; rfl⟩

/-- What follows a text completes no escape of it, unless it starts with a hexadecimal digit. -/
theorem StartsPlain.append {text rest : List Char} (hne : text ≠ []) (ht : StartsPlain text)
    (h : ∀ c more, rest = c :: more → hexValue? c = none) : StartsPlain (text ++ rest) := by
  rcases startsPlain_or (text ++ rest) with hstart | ⟨a, b, more, byte, heq, hbyte⟩
  · exact hstart
  · obtain ⟨ha, hb⟩ := isSome_of_hexByte? hbyte
    -- one of the digits would be the start of the rest
    match text with
    | [] => exact absurd rfl hne
    | [_] =>
      rw [h a _ (List.cons.inj heq).2] at ha
      cases ha
    | [_, _] =>
      rw [h b _ (List.cons.inj (List.cons.inj heq).2).2] at hb
      cases hb
    | _ :: _ :: _ :: _ =>
      cases heq
      rw [ht _ _ _ rfl] at hbyte
      cases hbyte

/-- An escape stands in one of two texts if it stands in both together, unless the second one starts
with a hexadecimal digit. -/
theorem hasEscape_append {front rest : List Char}
    (h : ∀ c more, rest = c :: more → hexValue? c = none) :
    hasEscape (front ++ rest) = (hasEscape front || hasEscape rest) := by
  induction front with
  | nil => rfl
  | cons c front ih =>
      rcases startsPlain_or (c :: front) with hstart | ⟨a, b, more, byte, heq, hbyte⟩
      · have happend : StartsPlain (c :: (front ++ rest)) := hstart.append (List.cons_ne_nil _ _) h
        rw [List.cons_append, hasEscape_cons hstart, hasEscape_cons happend, ih]
      · cases heq
        rw [hasEscape_of_byte hbyte, Bool.true_or]
        exact hasEscape_of_byte hbyte _

/-- What holds no `%` completes no escape of a text in front of it if two digits do not. -/
theorem hasEscape_append_of_digits {front rest : List Char}
    (h : hasEscape (front ++ ['0', '0']) = false) (hrest : '%' ∉ rest) :
    hasEscape (front ++ rest) = false := by
  induction front with
  | nil => exact hasEscape_of_notMem hrest
  | cons c front ih =>
      have hzeros : StartsPlain (c :: (front ++ ['0', '0'])) := startsPlain_of_not_hasEscape h
      have hstart : StartsPlain (c :: (front ++ rest)) := by
        intro a b more heq
        obtain ⟨rfl, hfront⟩ := List.cons.inj heq
        match front with
        | [] => exact absurd (hzeros '0' '0' [] rfl) (by decide)
        | [d] =>
          -- a digit at the end would make an escape with the zero behind it
          obtain ⟨rfl, _⟩ := List.cons.inj hfront
          have hbyte := hzeros d '0' ['0'] rfl
          cases hd : hexValue? d with
          | none =>
              rw [hexByte?, hd]
              rfl
          | some value =>
              rw [hexByte?, hd] at hbyte
              cases hbyte
        | _ :: _ :: _ =>
          cases hfront
          exact hzeros _ _ _ rfl
      rw [List.cons_append, hasEscape_cons hzeros] at h
      rw [List.cons_append, hasEscape_cons hstart]
      exact ih h

theorem length_decodeLossy_le (bytes : List UInt8) : (decodeLossy bytes).length ≤ bytes.length := by
  fun_induction decodeLossy bytes <;> simp only [List.length_cons, List.length_nil] at * <;> omega

end Text

namespace Pointer

/-! ## Reading what was written -/

/-- Reading merges characters of a text at most. -/
theorem length_unescape_append_le (front rest : List Char) :
    (unescape (front ++ rest)).length ≤ front.length + (unescape rest).length := by
  have hcons : ∀ c rest, (unescape (c :: rest)).length ≤ 1 + (unescape rest).length := by
    intro c rest
    rw [unescape.eq_def]
    split
    · next heq => cases heq
    · next more heq =>
        cases heq
        have hnext : unescape ('1' :: more) = '1' :: unescape more := by simp [unescape]
        rw [hnext, List.length_cons, List.length_cons]
        omega
    · next more heq =>
        cases heq
        have hnext : unescape ('0' :: more) = '0' :: unescape more := by simp [unescape]
        rw [hnext, List.length_cons, List.length_cons]
        omega
    · next heq =>
        cases heq
        rw [List.length_cons]
        omega
  induction front with
  | nil => simp
  | cons c front ih =>
      rw [List.cons_append, List.length_cons]
      have := hcons c (front ++ rest)
      omega

theorem length_unescape_le (text : List Char) : (unescape text).length ≤ text.length := by
  have hle := length_unescape_append_le text []
  rwa [List.append_nil, unescape, List.length_nil, Nat.add_zero] at hle

/-- A hexadecimal digit is written as itself. -/
theorem escape_of_isSome {c : Char} (h : (Text.hexValue? c).isSome = true) : escape c = [c] := by
  rw [escape, if_neg, if_neg] <;>
  · rintro rfl
    exact absurd h (by decide)

/-- An escape is written as itself. -/
theorem flatMap_escape_of_byte {a b : Char} {byte : UInt8} (h : Text.hexByte? a b = some byte)
    (rest : List Char) :
    ('%' :: a :: b :: rest).flatMap escape = '%' :: a :: b :: rest.flatMap escape := by
  obtain ⟨ha, hb⟩ := Text.isSome_of_hexByte? h
  rw [List.flatMap_cons, List.flatMap_cons, List.flatMap_cons, escape_of_isSome ha,
    escape_of_isSome hb]
  rfl

/-- Only writing puts a `~` at the start. -/
theorem eq_cons_of_flatMap_escape {c : Char} (hc : c ≠ '~') {rest text : List Char}
    (h : text.flatMap escape = c :: rest) :
    ∃ more, text = c :: more ∧ rest = more.flatMap escape := by
  cases text with
  | nil => cases h
  | cons d more =>
      rw [List.flatMap_cons, escape] at h
      split at h
      · exact absurd (List.cons.inj h).1.symm hc
      · split at h
        · exact absurd (List.cons.inj h).1.symm hc
        · obtain ⟨rfl, rfl⟩ := List.cons.inj h
          exact ⟨more, rfl, rfl⟩

/-- Writing makes no escapes. -/
theorem startsPlain_flatMap_escape {text : List Char} (h : Text.StartsPlain text) :
    Text.StartsPlain (text.flatMap escape) := by
  intro a b rest heq
  cases hbyte : Text.hexByte? a b with
  | none => rfl
  | some byte =>
      -- the digits stand in the text as well, since they are not what writing puts in
      obtain ⟨ha, hb⟩ := Text.isSome_of_hexByte? hbyte
      have hne : ∀ {c}, (Text.hexValue? c).isSome = true → c ≠ '~' := by
        rintro c hsome rfl
        exact absurd hsome (by decide)
      obtain ⟨more₁, rfl, h₁⟩ := eq_cons_of_flatMap_escape (by decide) heq
      obtain ⟨more₂, rfl, h₂⟩ := eq_cons_of_flatMap_escape (hne ha) h₁.symm
      obtain ⟨more₃, rfl, _⟩ := eq_cons_of_flatMap_escape (hne hb) h₂.symm
      rw [h a b more₃ rfl] at hbyte
      cases hbyte

/-- Writing neither makes nor breaks escapes. -/
theorem hasEscape_flatMap_escape (text : List Char) :
    Text.hasEscape (text.flatMap escape) = Text.hasEscape text := by
  induction text with
  | nil => rfl
  | cons c rest ih =>
      rcases Text.startsPlain_or (c :: rest) with hstart | ⟨a, b, more, byte, heq, hbyte⟩
      · have hwritten := startsPlain_flatMap_escape hstart
        rw [Text.hasEscape_cons hstart, ← ih]
        have htwo : ∀ mark, mark ≠ '%' → escape c = ['~', mark] →
            Text.hasEscape ((c :: rest).flatMap escape) = Text.hasEscape (rest.flatMap escape) := by
          intro mark hmark hc
          rw [List.flatMap_cons, hc, List.cons_append, List.singleton_append,
            Text.hasEscape_cons (Text.startsPlain_of_ne (by decide) _),
            Text.hasEscape_cons (Text.startsPlain_of_ne hmark _)]
        by_cases ht : c = '~'
        · exact htwo '0' (by decide) (by rw [escape, if_pos ht])
        · by_cases hs : c = '/'
          · exact htwo '1' (by decide) (by rw [escape, if_neg ht, if_pos hs])
          · have hc : escape c = [c] := by rw [escape, if_neg ht, if_neg hs]
            rw [List.flatMap_cons, hc, List.singleton_append] at hwritten ⊢
            rw [Text.hasEscape_cons hwritten]
      · cases heq
        rw [flatMap_escape_of_byte hbyte, Text.hasEscape_of_byte hbyte, Text.hasEscape_of_byte hbyte]

/-- The written form of a character that starts no escape is read as it is. -/
theorem decodeRun_escape (run : List UInt8) {c : Char} {rest : List Char}
    (h : Text.StartsPlain (c :: rest)) :
    Text.decodeRun run ((c :: rest).flatMap escape)
      = Text.decodeLossy run ++ (escape c ++ Text.decodeRun [] (rest.flatMap escape)) := by
  have hwritten := startsPlain_flatMap_escape h
  have htwo : ∀ mark, mark ≠ '%' → escape c = ['~', mark] →
      Text.decodeRun run ((c :: rest).flatMap escape)
        = Text.decodeLossy run ++ (escape c ++ Text.decodeRun [] (rest.flatMap escape)) := by
    intro mark hmark hc
    rw [List.flatMap_cons, hc]
    simp only [List.cons_append, List.nil_append]
    rw [Text.decodeRun_cons run (Text.startsPlain_of_ne (by decide) _),
      Text.decodeRun_cons [] (Text.startsPlain_of_ne hmark _)]
    rfl
  by_cases ht : c = '~'
  · exact htwo '0' (by decide) (by rw [escape, if_pos ht])
  · by_cases hs : c = '/'
    · exact htwo '1' (by decide) (by rw [escape, if_neg ht, if_pos hs])
    · have hc : escape c = [c] := by rw [escape, if_neg ht, if_neg hs]
      rw [List.flatMap_cons, hc, List.singleton_append] at hwritten ⊢
      rw [Text.decodeRun_cons run hwritten, List.singleton_append]

/-- A character that starts no escape counts for itself. -/
theorem length_read_written_cons (run : List UInt8) {c : Char} {rest : List Char}
    (hstart : Text.StartsPlain (c :: rest))
    (hrest : (unescape (Text.decodeRun [] (rest.flatMap escape))).length
      + (if Text.hasEscape rest = true then 1 else 0) ≤ rest.length) :
    (unescape (Text.decodeRun run ((c :: rest).flatMap escape))).length
        + (if Text.hasEscape (c :: rest) = true then 1 else 0)
      ≤ run.length + (rest.length + 1) := by
  have hbytes := Text.length_decodeLossy_le run
  have happend := length_unescape_append_le (Text.decodeLossy run)
    (escape c ++ Text.decodeRun [] (rest.flatMap escape))
  rw [unescape_escape_append, List.length_cons] at happend
  rw [decodeRun_escape run hstart, Text.hasEscape_cons hstart]
  omega

/-- Reading what was written gives no more characters than there were, and fewer if there was an
escape. -/
theorem length_read_written (run : List UInt8) (name : List Char) :
    (unescape (Text.decodeRun run (name.flatMap escape))).length
        + (if Text.hasEscape name = true then 1 else 0)
      ≤ run.length + name.length := by
  fun_induction Text.decodeRun run name with
  | case1 run =>
      have hbytes := Text.length_decodeLossy_le run
      have hread := length_unescape_le (Text.decodeLossy run)
      have hnone : Text.hasEscape [] = false := rfl
      rw [List.flatMap_nil, Text.decodeRun, hnone, List.length_nil]
      simp only [Bool.false_eq_true, if_false]
      omega
  | case2 run a b rest byte hbyte ih =>
      rw [flatMap_escape_of_byte hbyte, Text.decodeRun, hbyte, Text.hasEscape_of_byte hbyte,
        if_pos rfl]
      simp only [List.length_append, List.length_cons, List.length_nil] at ih ⊢
      omega
  | case3 run a b rest hbyte ih =>
      have hstart : Text.StartsPlain ('%' :: a :: b :: rest) := by
        intro a' b' rest' heq
        cases heq
        exact hbyte
      rw [List.length_nil, Nat.zero_add] at ih
      exact length_read_written_cons run hstart ih
  | case4 run c rest hne ih =>
      have hstart : Text.StartsPlain (c :: rest) := by
        intro a b more heq
        obtain ⟨hc, hrest⟩ := List.cons.inj heq
        exact (hne a b more hc hrest).elim
      rw [List.length_nil, Nat.zero_add] at ih
      exact length_read_written_cons run hstart ih

/-- A text without escapes is its own reading. -/
theorem percentDecode_written {name : List Char} (h : Text.hasEscape name = false) :
    Text.percentDecode (name.flatMap escape) = name.flatMap escape := by
  unfold Text.percentDecode
  induction name with
  | nil => rfl
  | cons c rest ih =>
      have hstart := Text.startsPlain_of_not_hasEscape h
      rw [Text.hasEscape_cons hstart] at h
      rw [decodeRun_escape [] hstart, ih h, List.flatMap_cons]
      rfl

/-- Just the names without an escape are read back. -/
theorem decodeToken_encodeToken_iff {name : String} :
    decodeToken (encodeToken name) = name ↔ Text.hasEscape name.toList = false := by
  rw [decodeToken, toList_encodeToken]
  constructor
  · intro h
    have hread := length_read_written [] name.toList
    have hlist : unescape (Text.percentDecode (name.toList.flatMap escape)) = name.toList := by
      rw [← String.toList_ofList (l := unescape _), h]
    rw [Text.percentDecode] at hlist
    rw [hlist, List.length_nil, Nat.zero_add] at hread
    cases hescape : Text.hasEscape name.toList with
    | false => rfl
    | true =>
        rw [hescape, if_pos rfl] at hread
        omega
  · intro h
    rw [percentDecode_written h, unescape_escape, String.ofList_toList]

end Pointer

end OpenApi
