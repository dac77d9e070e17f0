import OpenApi.Url.Basic

/-!
# File names and URLs

An absolute file name becomes a `file` URL whose segments are the names on the way, and a `file` URL
names a file by its decoded segments.
-/

namespace OpenApi.Url

/-- The names on the way to an absolute file name: empty names and single dots lead nowhere. -/
def fileNames (path : List Char) : List (List Char) :=
  (Text.splitAt '/' path).filter fun name => ¬(name.isEmpty ∨ name = ['.'])

/-- The URL of an absolute file name. -/
def ofFile? (path : String) : Option Url :=
  match path.toList with
  | '/' :: rest =>
    let segments := (fileNames rest).map (encode fileNameSet)
    some ⟨"file", some {}, .segments (if segments.isEmpty then [""] else segments), none, none⟩
  | _ => none

/-- Whether a byte is an ASCII letter. -/
def isLetterByte (b : UInt8) : Bool := (0x41 ≤ b ∧ b ≤ 0x5A) ∨ (0x61 ≤ b ∧ b ≤ 0x7A)

/-- A name that ends in a drive letter ends in a slash. -/
def closeDriveLetter (path : List UInt8) : List UInt8 :=
  match path.reverse with
  | mark :: letter :: _ :: _ =>
    if isLetterByte letter ∧ (mark = 0x3A ∨ mark = 0x7C) then path ++ [0x2F] else path
  | _ => path

/-- The file name, as bytes, of a URL without a foreign host. -/
def toFile? (url : Url) : Option (List UInt8) :=
  let host := (url.authority.map (·.host)).getD ""
  match url.path with
  | .flat _ => none
  | .segments [] => none
  | .segments items =>
    if host = "" ∨ host = "localhost" then
      some (closeDriveLetter (items.flatMap fun item => 0x2F :: Text.percentBytes item.toList))
    else none

end OpenApi.Url
