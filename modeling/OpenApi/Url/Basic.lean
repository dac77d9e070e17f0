import OpenApi.Text.Percent
import OpenApi.Text.Split

/-!
# URLs

A URL in its parsed parts. Every part is kept in written form (already percent-encoded), so writing
a URL is concatenation and two URLs are the same when their parts are. The path of most URLs is a
list of segments; a URL such as `urn:a` has a flat path instead, which nothing relative can be
joined to.
-/

namespace OpenApi

namespace Url

/-- Why a text is not a URL. -/
inductive Fault where
  | emptyHost
  | domainName
  | port
  | ipv4
  | ipv6
  | domainCharacter
  | relativeWithoutBase
  | relativeToFlatBase
  deriving DecidableEq, Repr

/-- The wording of a fault. -/
def Fault.message : Fault → String
  | emptyHost => "empty host"
  | domainName => "invalid international domain name"
  | port => "invalid port number"
  | ipv4 => "invalid IPv4 address"
  | ipv6 => "invalid IPv6 address"
  | domainCharacter => "invalid domain character"
  | relativeWithoutBase => "relative URL without a base"
  | relativeToFlatBase => "relative URL with a cannot-be-a-base base"

/-- The path of a URL: segments, each written after a slash, or one flat text. -/
inductive Path where
  | segments (items : List String)
  | flat (text : String)
  deriving DecidableEq, Repr, Inhabited

/-- Credentials, host and port. -/
structure Authority where
  username : String := ""
  password : String := ""
  host : String := ""
  port : Option Nat := none
  deriving DecidableEq, Repr, Inhabited

end Url

/-- A parsed URL. -/
structure Url where
  scheme : String
  authority : Option Url.Authority
  path : Url.Path
  query : Option String
  fragment : Option String
  deriving DecidableEq, Repr, Inhabited

namespace Url

/-! ## Writing -/

/-- The text of an authority. -/
def Authority.text (a : Authority) : String :=
  let password := if a.password.isEmpty then "" else ":" ++ a.password
  let credentials :=
    if a.username.isEmpty && a.password.isEmpty then "" else a.username ++ password ++ "@"
  let port :=
    match a.port with
    | some port => ":" ++ toString port
    | none => ""
  credentials ++ a.host ++ port

/-- The text of a path. -/
def Path.text : Path → String
  | segments items => String.join (items.map ("/" ++ ·))
  | flat text => text

/-- What stands between scheme and path. A path that starts with an empty segment would read as an
authority without one, so `/.` keeps them apart. -/
def separator (url : Url) : String :=
  match url.authority, url.path with
  | some authority, _ => "//" ++ authority.text
  | none, .segments ("" :: _ :: _) => "/."
  | none, _ => ""

/-- The text of an optional part behind its mark. -/
def marked (mark : String) : Option String → String
  | some text => mark ++ text
  | none => ""

/-- The text of a URL. -/
def text (url : Url) : String :=
  url.scheme ++ ":" ++ url.separator ++ url.path.text ++ marked "?" url.query
    ++ marked "#" url.fragment

/-! ## Parts -/

/-- A flat path loses the blanks at its end once nothing follows it. -/
def trimFlat (query : Option String) : Path → Path
  | .flat text =>
    if query.isNone then
      .flat (String.ofList (text.toList.reverse.dropWhile (· = ' ')).reverse)
    else .flat text
  | path => path

/-- The URL of the document that a URL points into. -/
def document (url : Url) : Url :=
  { url with path := trimFlat url.query url.path, fragment := none }

/-- The last segment of a path. -/
def lastSegment? (url : Url) : Option String :=
  match url.path with
  | .segments items => items.getLast?
  | .flat _ => none

/-! ## Character sets -/

/-- The ASCII control characters. -/
def isControl (c : Char) : Bool := c.toNat < 0x20 || c.toNat = 0x7F

/-- What is escaped in a fragment. -/
def fragmentSet (c : Char) : Bool :=
  isControl c || c = ' ' || c = '\x22' || c = '<' || c = '>' || c = '\x60'

/-- What is escaped in a query. -/
def querySet (c : Char) : Bool :=
  isControl c || c = ' ' || c = '\x22' || c = '#' || c = '<' || c = '>'

/-- What is escaped in the query of a special URL. -/
def specialQuerySet (c : Char) : Bool := querySet c || c = '\x27'

/-- What is escaped in a path. -/
def pathSet (c : Char) : Bool :=
  fragmentSet c || c = '#' || c = '?' || c = '{' || c = '}'

/-- What is escaped in credentials. -/
def credentialSet (c : Char) : Bool :=
  pathSet c || c = '/' || c = ':' || c = ';' || c = '=' || c = '@' || c = '[' || c = '\\'
    || c = ']' || c = '^' || c = '|'

/-- What is escaped in a file name that becomes a segment. -/
def fileNameSet (c : Char) : Bool := pathSet c || c = '/' || c = '%' || c = '\\'

/-- Percent-encodes characters. -/
def encode (special : Char → Bool) (text : List Char) : String :=
  String.ofList (Text.percentEncode special text)

end Url

end OpenApi
