import OpenApi.Pattern.Syntax
import OpenApi.Text.CategoryTable

/-!
# Character properties

The sets that patterns name by a property: the general categories, a few binary properties and the
most common scripts. Names are told apart without regard to case, blanks, hyphens and underscores,
and a leading `is` does not count.
-/

namespace OpenApi.Pattern

namespace CharSet

/-- The characters that a test tells in ASCII and a table beyond. -/
def ofTable (ascii : CharSet) (ranges : List (Nat × Nat)) : CharSet := fun c =>
  if c.toNat < 0x80 then ascii c else ranges.any (Text.inRange c.toNat)

/-- No character. -/
def empty : CharSet := fun _ => false

/-- The ASCII symbols; all other visible characters that are no letters or digits are punctuation.
-/
def asciiSymbols : CharSet := ofList ['$', '+', '<', '=', '>', '^', '\x60', '|', '~']

/-- Letters. -/
def letters : CharSet := ofTable Char.isAlpha Text.letterRanges

/-- Letters that modify others. -/
def modifierLetters : CharSet := ofTable empty Text.modifierLetterRanges

/-- Letters that are a capital and a small letter in one. -/
def titleLetters : CharSet := ofTable empty Text.titleLetterRanges

/-- Capital letters. -/
def capitalLetters : CharSet := fun c => Text.isUpper c && letters c

/-- Small letters; ordinal indicators and modifiers are lower case without being letters of a case.
-/
def smallLetters : CharSet := fun c =>
  Text.isLower c && letters c && !modifierLetters c && c.toNat ≠ 0xAA && c.toNat ≠ 0xBA

/-- Letters without case. -/
def otherLetters : CharSet := fun c =>
  letters c && !capitalLetters c && !smallLetters c && !titleLetters c && !modifierLetters c

/-- Marks. -/
def marks : CharSet := ofTable empty Text.markRanges

/-- Numbers that are written as letters. -/
def letterNumbers : CharSet := ofTable empty Text.letterNumberRanges

/-- Numbers that are neither digits nor letters. -/
def otherNumbers : CharSet := fun c => Text.isNumeric c && !Text.isDecimal c && !letterNumbers c

/-- Punctuation. -/
def punctuation : CharSet :=
  ofTable (fun c => '!' ≤ c && c ≤ '~' && !c.isAlphanum && !asciiSymbols c) Text.punctuationRanges

/-- Symbols. -/
def symbols : CharSet := ofTable asciiSymbols Text.symbolRanges

/-- Separators. -/
def separators : CharSet := ofTable (· = ' ') Text.separatorRanges

/-- Control characters. -/
def controls : CharSet := fun c => c.toNat < 0x20 || (0x7F ≤ c.toNat && c.toNat ≤ 0x9F)

/-- The characters of no other category. -/
def others : CharSet := fun c =>
  !(letters c || marks c || Text.isNumeric c || punctuation c || symbols c || separators c)

/-- The characters with the property Alphabetic. -/
def alphabetic : CharSet := fun c => Text.isAlphanumeric c && (!Text.isNumeric c || letterNumbers c)

end CharSet

/-- Properties by their names, which are written without what does not count. -/
def properties : List (List String × CharSet) :=
  [(["l", "letter"], CharSet.letters),
   (["lu", "uppercaseletter"], CharSet.capitalLetters),
   (["ll", "lowercaseletter"], CharSet.smallLetters),
   (["lt", "titlecaseletter"], CharSet.titleLetters),
   (["lc", "casedletter"],
     fun c => CharSet.capitalLetters c || CharSet.smallLetters c || CharSet.titleLetters c),
   (["lm", "modifierletter"], CharSet.modifierLetters),
   (["lo", "otherletter"], CharSet.otherLetters),
   (["m", "mark", "combiningmark"], CharSet.marks),
   (["n", "number"], Text.isNumeric),
   (["nd", "decimalnumber", "digit"], Text.isDecimal),
   (["nl", "letternumber"], CharSet.letterNumbers),
   (["no", "othernumber"], CharSet.otherNumbers),
   (["p", "punctuation", "punct"], CharSet.punctuation),
   (["s", "symbol"], CharSet.symbols),
   (["z", "separator"], CharSet.separators),
   (["zs", "spaceseparator"],
     fun c => CharSet.separators c && c.toNat ≠ 0x2028 && c.toNat ≠ 0x2029),
   (["zl", "lineseparator"], fun c => c.toNat = 0x2028),
   (["zp", "paragraphseparator"], fun c => c.toNat = 0x2029),
   (["c", "other"], CharSet.others),
   (["cc", "control", "cntrl"], CharSet.controls),
   (["any"], fun _ => true),
   (["ascii"], fun c => c.toNat < 0x80),
   (["alphabetic", "alpha"], CharSet.alphabetic),
   (["uppercase", "upper"], Text.isUpper),
   (["lowercase", "lower"], Text.isLower),
   (["whitespace", "wspace", "space"], Text.isBlank)]

/-- Scripts by their names. -/
def scripts : List (List String × CharSet) :=
  [(["latin", "latn"], fun c => Text.latinRanges.any (Text.inRange c.toNat)),
   (["greek", "grek"], fun c => Text.greekRanges.any (Text.inRange c.toNat)),
   (["cyrillic", "cyrl"], fun c => Text.cyrillicRanges.any (Text.inRange c.toNat)),
   (["han", "hani"], fun c => Text.hanRanges.any (Text.inRange c.toNat))]

/-- The set of a name in a list of named sets. -/
def setNamed? (sets : List (List String × CharSet)) (name : String) : Option CharSet :=
  (sets.find? fun (names, _) => names.contains name).map Prod.snd

/-- A name without what does not count. -/
def plainName (name : List Char) : String :=
  let kept := (name.filter fun c => c ≠ ' ' ∧ c ≠ '-' ∧ c ≠ '_').map Char.toLower
  String.ofList (if ['i', 's'].isPrefixOf kept then kept.drop 2 else kept)

/-- The set of a property: one name, or the kind of a property and its value. -/
def property? (text : List Char) : Option CharSet :=
  match text.dropWhile fun c => c ≠ '=' ∧ c ≠ ':' with
  | [] => setNamed? (properties ++ scripts) (plainName text)
  | _ :: value =>
    let kind := plainName (text.takeWhile fun c => c ≠ '=' ∧ c ≠ ':')
    if kind = "gc" ∨ kind = "generalcategory" then setNamed? properties (plainName value)
    else if kind = "sc" ∨ kind = "script" then setNamed? scripts (plainName value)
    else none

end OpenApi.Pattern
