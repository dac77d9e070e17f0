import OpenApi.Json.Basic
import OpenApi.Text.Percent
import OpenApi.Text.Split

/-!
# JSON Pointers

A pointer is kept as its list of tokens in written form: `~0` stands for `~`, `~1` for `/`, and no
token holds a slash, so a pointer and its text determine each other. Tokens are decoded only when a
tree is walked, and percent-escapes are decoded first; a name that holds `%` may therefore be read
differently from what was written, every other name is read back as itself.
-/

namespace OpenApi

/-- A JSON Pointer: its tokens, in written form. -/
structure Pointer where
  tokens : List String
  deriving DecidableEq, Repr, Inhabited

namespace Pointer

/-! ## Tokens -/

/-- The written form of a character of a name. -/
def escape (c : Char) : List Char :=
  if c = '~' then ['~', '0'] else if c = '/' then ['~', '1'] else [c]

/-- The token that names a member. -/
def encodeToken (name : String) : String := String.ofList (name.toList.flatMap escape)

/-- Replaces `~1` by `/` and `~0` by `~`; any other `~` stands for itself. -/
def unescape : List Char → List Char
  | [] => []
  | '~' :: '1' :: rest => '/' :: unescape rest
  | '~' :: '0' :: rest => '~' :: unescape rest
  | c :: rest => c :: unescape rest

/-- The name that a token denotes. -/
def decodeToken (token : String) : String :=
  String.ofList (unescape (Text.percentDecode token.toList))

/-- The index that a token denotes: decimal digits, after an optional plus sign. -/
def index? (token : String) : Option Nat :=
  let digits :=
    match token.toList with
    | '+' :: rest => rest
    | digits => digits
  if digits.isEmpty ∨ ¬digits.all Char.isDigit then none
  else some (digits.foldl (fun value c => 10 * value + (c.toNat - '0'.toNat)) 0)

/-! ## Building and writing -/

/-- The pointer to a whole document. -/
def root : Pointer := ⟨[]⟩

/-- The pointer to the member `name` of what `p` points to. -/
def member (p : Pointer) (name : String) : Pointer := ⟨p.tokens ++ [encodeToken name]⟩

/-- The pointer to item `i` of what `p` points to. -/
def item (p : Pointer) (i : Nat) : Pointer := ⟨p.tokens ++ [toString i]⟩

/-- The text of a pointer: a slash before each token. -/
def text (p : Pointer) : String := String.join (p.tokens.map ("/" ++ ·))

/-- The pointer that a fragment denotes. A single slash means the whole document, as the empty
fragment does; any other pointer starts with a slash. -/
def parse? (fragment : String) : Option Pointer :=
  match fragment.toList with
  | [] => some root
  | ['/'] => some root
  | '/' :: rest => some ⟨(Text.splitAt '/' rest).map String.ofList⟩
  | _ => none

/-- The pointer `/components/schemas`. -/
def componentSchemas : Pointer := (root.member "components").member "schemas"

end Pointer

namespace Json

/-- One step into a tree: a member of an object by its decoded name, or an item of an array by its
index. -/
def child? (token : String) : Json → Option Json
  | object members => members.lookup (Pointer.decodeToken token)
  | array items => (Pointer.index? (Pointer.decodeToken token)).bind (items[·]?)
  | _ => none

/-- The node that tokens lead to. -/
def follow? (value : Json) : List String → Option Json
  | [] => some value
  | token :: rest => (value.child? token).bind (·.follow? rest)

/-- The node that a fragment designates in a tree. -/
def resolve? (tree : Json) (fragment : String) : Option Json :=
  (Pointer.parse? fragment).bind fun pointer => tree.follow? pointer.tokens

/-- The members of `components/schemas`, where those are objects. -/
def componentSchemas? (tree : Json) : Option Members :=
  ((tree.member? "components").bind (·.member? "schemas")).bind asObject?

end Json

end OpenApi
