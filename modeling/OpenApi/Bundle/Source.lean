import OpenApi.Error
import OpenApi.Url.File

/-!
# Sources of documents

A source is a function from URLs to texts, so asking twice gives the same answer. Three kinds are
built here: one that knows nothing, one that knows the texts of some URLs, and one that reads files.
Files come from a tree of names and texts, walked name by name as a file system does.
-/

namespace OpenApi

/-- Where the texts of documents come from. -/
structure Source where
  fetch : Url → Except Error String

instance : Inhabited Source := ⟨⟨fun url => .error (.retrieval (.noDocument url.text))⟩⟩

/-- Files below one directory, by their names relative to it. -/
structure FileTree where
  home : String
  files : List (String × String)
  deriving Inhabited

namespace FileTree

/-- The names on a path of bytes, empty names included. -/
def names : List UInt8 → List (List UInt8)
  | [] => [[]]
  | b :: rest =>
    if b = 0x2F then [] :: names rest
    else
      match names rest with
      | name :: more => (b :: name) :: more
      | [] => [[b]]

/-- The names that lead somewhere. -/
def properNames (path : String) : List (List UInt8) :=
  (names path.toUTF8.toList).filter fun name => ¬(name = [] ∨ name = [0x2E])

/-- The files of a tree, by the names from the root. -/
def entries (tree : FileTree) : List (List (List UInt8) × String) :=
  tree.files.map fun (path, text) => (properNames tree.home ++ properNames path, text)

/-- Whether names from the root lead to a directory. -/
def isDirectory (tree : FileTree) (path : List (List UInt8)) : Bool :=
  path.isPrefixOf (properNames tree.home)
    || tree.entries.any fun (file, _) => path.isPrefixOf file && path.length < file.length

/-- Follows names from a directory to the text of a file. -/
def walk (tree : FileTree) (directory : List (List UInt8)) :
    List (List UInt8) → Except FileFault String
  | [] => .error .isDirectory
  | name :: rest =>
    if name = [] ∨ name = [0x2E] then tree.walk directory rest
    else if name = [0x2E, 0x2E] then tree.walk directory.dropLast rest
    else
      let path := directory ++ [name]
      if tree.isDirectory path then tree.walk path rest
      else
        match tree.entries.lookup path with
        | some text => if rest.isEmpty then .ok text else .error .notDirectory
        | none => .error .notFound

/-- The text of the file with an absolute name. -/
def read (tree : FileTree) (path : List UInt8) : Except FileFault String :=
  if path.contains 0 then .error .nulInName else tree.walk [] (names path)

/-- The absolute form of a file name. -/
def absolute (tree : FileTree) (path : String) : String :=
  if path.toList.head? = some '/' then path else tree.home ++ "/" ++ path

end FileTree

namespace Source

/-- Knows no document. -/
def empty : Source := default

/-- Knows the texts of some URLs. -/
def ofTexts (texts : List (String × String)) : Source where
  fetch url :=
    match texts.lookup url.text with
    | some text => .ok text
    | none => .error (.retrieval (.noDocument url.text))

/-- Reads `file` URLs from a tree and knows nothing else. -/
def ofFiles (tree : FileTree) : Source where
  fetch url :=
    if url.scheme ≠ "file" then .error (.retrieval (.notAFile url.text))
    else
      match url.toFile? with
      | none => .error (.retrieval (.badFileUri url.text))
      | some path =>
        match tree.read path with
        | .ok text => .ok text
        | .error fault => .error (.file fault)

end Source

end OpenApi
