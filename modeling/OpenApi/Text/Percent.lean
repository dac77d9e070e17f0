import OpenApi.Text.Utf8

/-!
# Percent-encoding

`%` and two hexadecimal digits stand for a byte. Decoding turns each run of such escapes into text
on its own and leaves every other character as it is: a character beside a run never completes a
byte sequence of it, so this is the decoding of the whole byte string, and a text without `%` is
its own decoding.
-/

namespace OpenApi.Text

/-- The value of a hexadecimal digit. -/
def hexValue? (c : Char) : Option Nat :=
  if '0' ≤ c ∧ c ≤ '9' then some (c.toNat - '0'.toNat)
  else if 'a' ≤ c ∧ c ≤ 'f' then some (c.toNat - 'a'.toNat + 10)
  else if 'A' ≤ c ∧ c ≤ 'F' then some (c.toNat - 'A'.toNat + 10)
  else none

/-- The byte that two hexadecimal digits denote. -/
def hexByte? (high low : Char) : Option UInt8 := do
  let high ← hexValue? high
  let low ← hexValue? low
  some (UInt8.ofNat (16 * high + low))

/-- Decodes `text`, where `run` holds the bytes of the escapes just before it. -/
def decodeRun (run : List UInt8) : List Char → List Char
  | [] => decodeLossy run
  | '%' :: a :: b :: rest =>
    match hexByte? a b with
    | some byte => decodeRun (run ++ [byte]) rest
    | none => decodeLossy run ++ '%' :: decodeRun [] (a :: b :: rest)
  | c :: rest => decodeLossy run ++ c :: decodeRun [] rest

/-- The text that a percent-encoded text denotes; what is no escape stands for itself. -/
def percentDecode (text : List Char) : List Char := decodeRun [] text

/-- The bytes that a percent-encoded text denotes; what is no escape stands for its UTF-8 bytes. -/
def percentBytes : List Char → List UInt8
  | [] => []
  | '%' :: a :: b :: rest =>
    match hexByte? a b with
    | some byte => byte :: percentBytes rest
    | none => String.utf8EncodeChar '%' ++ percentBytes (a :: b :: rest)
  | c :: rest => String.utf8EncodeChar c ++ percentBytes rest

/-- An upper-case hexadecimal digit. -/
def upperHexDigit (n : Nat) : Char := (Nat.digitChar n).toUpper

/-- The escape of a byte. -/
def percentEscape (b : UInt8) : List Char :=
  ['%', upperHexDigit (b.toNat / 16), upperHexDigit (b.toNat % 16)]

/-- Escapes the bytes of the non-ASCII characters and of those in the set `special`. -/
def percentEncode (special : Char → Bool) (text : List Char) : List Char :=
  text.flatMap fun c =>
    if 0x7F < c.toNat ∨ special c then (String.utf8EncodeChar c).flatMap percentEscape else [c]

/-- A text without `%` is its own decoding. -/
theorem percentDecode_eq_self {text : List Char} (h : '%' ∉ text) : percentDecode text = text := by
  unfold percentDecode
  induction text with
  | nil => simp [decodeRun, decodeLossy]
  | cons c rest ih =>
    have hc : c ≠ '%' := fun e => h (by simp [e])
    have hr : '%' ∉ rest := fun m => h (by simp [m])
    rw [decodeRun]
    · simp [decodeLossy, ih hr]
    · intro a b r hcons
      exact absurd hcons hc

end OpenApi.Text
