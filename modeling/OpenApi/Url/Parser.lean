import OpenApi.Url.Host

/-!
# Reading URLs and joining references

A text is first freed of the blanks around it and of tabs and line breaks anywhere, and cut at the
first `#` and at the first `?` before it; what remains is a scheme, an authority and a path.
Relative texts take what they lack from a base URL.

Special schemes always have a host and a path, also separate segments by backslashes, and leave out
their default port; `file` has no port and may have an empty host.
-/

namespace OpenApi.Url

/-! ## Schemes -/

/-- How the rest of a URL is read. -/
inductive Kind where
  | file
  | special
  | other
  deriving DecidableEq, Repr

/-- The kind of a scheme. -/
def Kind.ofScheme (scheme : String) : Kind :=
  if scheme = "file" then .file
  else if scheme = "http" ∨ scheme = "https" ∨ scheme = "ws" ∨ scheme = "wss" ∨ scheme = "ftp" then
    .special
  else .other

/-- Whether a character separates segments. -/
def Kind.isSlash (kind : Kind) (c : Char) : Bool := c = '/' || (kind ≠ .other && c = '\\')

/-- The port that a scheme implies. -/
def defaultPort? (scheme : String) : Option Nat :=
  if scheme = "http" ∨ scheme = "ws" then some 80
  else if scheme = "https" ∨ scheme = "wss" then some 443
  else if scheme = "ftp" then some 21
  else none

/-- The rest of a scheme up to its colon; `read` holds its characters in reverse. -/
def schemeRest (read : List Char) : List Char → Option (String × List Char)
  | [] => none
  | ':' :: rest => some (String.ofList read.reverse, rest)
  | c :: rest =>
    if c.isAlphanum || c = '+' || c = '-' || c = '.' then schemeRest (c.toLower :: read) rest
    else none

/-- The scheme that a text starts with, in lower case, and what follows its colon. -/
def scheme? (text : List Char) : Option (String × List Char) :=
  match text with
  | c :: _ => if c.isAlpha then schemeRest [] text else none
  | [] => none

/-! ## Paths -/

/-- A letter followed by a colon, or also by a bar. -/
def isDriveLetter (segment : List Char) : Bool :=
  match segment with
  | [letter, mark] => letter.isAlpha && (mark = ':' || mark = '|')
  | _ => false

/-- A letter followed by a colon. -/
def isNormalDriveLetter (segment : List Char) : Bool :=
  isDriveLetter segment && segment.getLast? = some ':'

/-- Whether a text starts with a segment that is a drive letter. -/
def startsWithDriveLetter (text : List Char) : Bool :=
  isDriveLetter (text.take 2)
    && (match text.drop 2 with
        | [] => true
        | c :: _ => c = '/' || c = '\\')

/-- Whether a segment stands for the one above; a dot may be escaped. -/
def isDoubleDot (segment : List Char) : Bool :=
  [ "..", "%2e%2e", "%2e.", ".%2e" ].contains (String.ofList (segment.map Char.toLower))

/-- Whether a segment stands for its place. -/
def isSingleDot (segment : List Char) : Bool :=
  [ ".", "%2e" ].contains (String.ofList (segment.map Char.toLower))

/-- The segments without the last, which stays if it is a drive letter. -/
def parent (segments : List String) : List String :=
  match segments.getLast? with
  | some last => if isDriveLetter last.toList then segments else segments.dropLast
  | none => []

/-- The written form of a segment; a drive letter is written with a colon. -/
def segmentText (kind : Kind) (piece : List Char) : String :=
  match piece with
  | [letter, _] =>
    if kind = .file && isDriveLetter piece then String.ofList [letter, ':']
    else encode pathSet piece
  | _ => encode pathSet piece

/-- Appends pieces to a path: a double dot goes up, a single dot stays, and either leaves an empty
segment if it is the last. -/
def appendPieces (kind : Kind) (segments : List String) : List (List Char) → List String
  | [] => segments
  | piece :: rest =>
    let ending := if rest.isEmpty then [""] else []
    if isDoubleDot piece then appendPieces kind (parent segments ++ ending) rest
    else if isSingleDot piece then appendPieces kind (segments ++ ending) rest
    else appendPieces kind (segments ++ [segmentText kind piece]) rest

/-- The pieces of a path text. -/
def pathPieces (kind : Kind) (text : List Char) : List (List Char) :=
  Text.splitAt '/' (text.map fun c => if kind.isSlash c then '/' else c)

/-- The path of a file starts with no empty segment, unless that is all it has. -/
def trimLeading (kind : Kind) (segments : List String) : List String :=
  if kind = .file then
    match segments.dropWhile (·.isEmpty) with
    | [] => [""]
    | rest => rest
  else segments

/-- The path that a text appends to segments. -/
def extend (kind : Kind) (segments : List String) (text : List Char) : Path :=
  .segments (trimLeading kind (appendPieces kind segments (pathPieces kind text)))

/-- The path after an authority: a special one is never empty. -/
def pathAfterHost (kind : Kind) (text : List Char) : Path :=
  match text with
  | [] => if kind = .other then .segments [] else .segments [""]
  | c :: rest => if kind.isSlash c then extend kind [] rest else extend kind [] text

/-! ## Authorities -/

/-- Cuts credentials off: the texts before and after the last `@`. -/
def cutCredentials (text : List Char) : Option (List Char) × List Char :=
  match Text.cutAt? '@' text.reverse with
  | some (after, before) => (some before.reverse, after.reverse)
  | none => (none, text)

/-- Cuts the port off: a colon inside brackets does not count. -/
def cutPort (inside : Bool) : List Char → List Char × Option (List Char)
  | [] => ([], none)
  | c :: rest =>
    if c = ':' ∧ ¬inside then ([], some rest)
    else
      let inside := if c = '[' then true else if c = ']' then false else inside
      let (host, port) := cutPort inside rest
      (c :: host, port)

/-- The port that digits denote, unless the scheme implies it. -/
def readPort (scheme : String) (digits : List Char) : Except Fault (Option Nat) :=
  if ¬digits.all Char.isDigit then .error .port
  else
    let value := digits.foldl (fun value c => value * 10 + (c.toNat - '0'.toNat)) 0
    if 65535 < value then .error .port
    else .ok (if digits.isEmpty || defaultPort? scheme = some value then none else some value)

/-- Reads an authority; `more` tells whether anything follows it. -/
def readAuthority (scheme : String) (kind : Kind) (text : List Char) (more : Bool) :
    Except Fault Authority := do
  let (credentials, rest) := cutCredentials text
  if credentials = some [] ∧ rest.isEmpty ∧ more then throw .emptyHost
  let (username, password) :=
    match Text.cutAt? ':' (credentials.getD []) with
    | some (username, password) => (username, password)
    | none => (credentials.getD [], [])
  let (hostText, portText) := cutPort false rest
  if kind ≠ .other ∧ hostText.isEmpty then throw .emptyHost
  let host ← if kind = .other then otherHost hostText else specialHost hostText
  if host.isEmpty ∧ (portText.isSome ∨ ¬username.isEmpty ∨ ¬password.isEmpty) then throw .emptyHost
  let port ← readPort scheme (portText.getD [])
  return { username := encode credentialSet username
           password := encode credentialSet password, host, port }

/-! ## Whole URLs -/

/-- A text cut into what precedes query and fragment, and these. -/
structure Cut where
  body : List Char
  query : Option (List Char)
  fragment : Option (List Char)

/-- Cuts a text at the first `#` and what precedes it at the first `?`. -/
def Cut.of (text : List Char) : Cut :=
  let (front, fragment) :=
    match Text.cutAt? '#' text with
    | some (front, fragment) => (front, some fragment)
    | none => (text, none)
  match Text.cutAt? '?' front with
  | some (body, query) => ⟨body, some query, fragment⟩
  | none => ⟨front, none, fragment⟩

/-- The written query. -/
def Cut.queryText (cut : Cut) (kind : Kind) : Option String :=
  cut.query.map (encode (if kind = .other then querySet else specialQuerySet))

/-- The written fragment. -/
def Cut.fragmentText (cut : Cut) : Option String := cut.fragment.map (encode fragmentSet)

/-- What follows two slashes. -/
def afterSlashes (scheme : String) (kind : Kind) (text : List Char) (cut : Cut) :
    Except Fault Url := do
  let authorityText := text.takeWhile (!kind.isSlash ·)
  let rest := text.dropWhile (!kind.isSlash ·)
  let more := !rest.isEmpty || cut.query.isSome || cut.fragment.isSome
  let authority ← readAuthority scheme kind authorityText more
  return ⟨scheme, some authority, pathAfterHost kind rest, cut.queryText kind, cut.fragmentText⟩

/-- A URL of the scheme `file` with no credentials and no port. -/
def fileUrl (host : String) (path : Path) (query fragment : Option String) : Url :=
  ⟨"file", some { host }, path, query, fragment⟩

/-- The URL with the query and fragment of a text, and its own query if the text has none. -/
def withTail (base : Url) (kind : Kind) (cut : Cut) : Url :=
  { base with query := (cut.queryText kind).or base.query, fragment := cut.fragmentText }

/-- The segments of a path. -/
def Path.items : Path → List String
  | segments items => items
  | flat _ => []

/-- The host of an authority, if there is one. -/
def hostText (url : Url) : String := (url.authority.map (·.host)).getD ""

/-- The segments that a relative path starts from: those of the base but the last. -/
def baseSegments (kind : Kind) (base : Url) : List String :=
  let items := base.path.items
  match items.getLast? with
  | some last => if kind = .file ∧ isNormalDriveLetter last.toList then items else items.dropLast
  | none => []

/-- What follows two slashes after `file:`. -/
def afterFileSlashes (text : List Char) (cut : Cut) : Except Fault Url := do
  let hostChars := text.takeWhile (!Kind.file.isSlash ·)
  let rest := text.dropWhile (!Kind.file.isSlash ·)
  let (query, fragment) := (cut.queryText .file, cut.fragmentText)
  if isDriveLetter hostChars then return fileUrl "" (extend .file [] text) query fragment
  if hostChars.isEmpty then return fileUrl "" (extend .file [] rest) query fragment
  let host ← specialHost hostChars
  let path := pathAfterHost .file rest
  let first := (path.items.head?.getD "").toList
  if host = "localhost" ∨ isNormalDriveLetter first then return fileUrl "" path query fragment
  return fileUrl host path query fragment

/-- The rest of a `file` URL; `base` is a `file` URL. -/
def readFile (base : Option Url) (cut : Cut) : Except Fault Url :=
  let (query, fragment) := (cut.queryText .file, cut.fragmentText)
  let fresh (text : List Char) : Url := fileUrl "" (extend .file [] text) query fragment
  match cut.body with
  | [] =>
    match base with
    | some base => .ok (withTail base .file cut)
    | none => .ok (fresh [])
  | c :: rest =>
    if Kind.file.isSlash c then
      match rest with
      | d :: text =>
        if Kind.file.isSlash d then afterFileSlashes text cut
        else .ok (rooted base rest query fragment)
      | [] => .ok (rooted base rest query fragment)
    else
      match base with
      | some base =>
        if startsWithDriveLetter cut.body then .ok (fresh cut.body)
        else
          .ok { base with path := extend .file (baseSegments .file base) cut.body, query, fragment }
      | none => .ok (fresh cut.body)
where
  /-- A path from the root keeps the drive letter or else the host of the base. -/
  rooted (base : Option Url) (rest : List Char) (query fragment : Option String) : Url :=
    if startsWithDriveLetter rest then fileUrl "" (extend .file [] rest) query fragment
    else
      match base with
      | some base =>
        let first := base.path.items.head?.getD ""
        if isNormalDriveLetter first.toList then
          fileUrl "" (extend .file [first] rest) query fragment
        else fileUrl base.hostText (extend .file [] rest) query fragment
      | none => fileUrl "" (extend .file [] rest) query fragment

/-- What starts a relative text that leaves the path of its base, whatever the scheme. -/
def isEitherSlash (c : Char) : Bool := c = '/' || c = '\\'

/-- A text without scheme, read relative to a base that is no `file` URL and has segments. -/
def readRelative (base : Url) (cut : Cut) : Except Fault Url :=
  let kind := Kind.ofScheme base.scheme
  let (query, fragment) := (cut.queryText kind, cut.fragmentText)
  match cut.body with
  | [] => .ok (withTail base kind cut)
  | c :: rest =>
    if isEitherSlash c then
      match rest with
      | d :: text =>
        if isEitherSlash d then
          let text := if c = '/' ∧ d = '/' then text else text.dropWhile isEitherSlash
          afterSlashes base.scheme kind text cut
        else .ok { base with path := extend kind [] rest, query, fragment }
      | [] => .ok { base with path := extend kind [] rest, query, fragment }
    else .ok { base with path := extend kind (baseSegments kind base) cut.body, query, fragment }

/-- What follows the colon of a scheme. -/
def readWithScheme (base : Option Url) (scheme : String) (text : List Char) : Except Fault Url :=
  let cut := Cut.of text
  match Kind.ofScheme scheme with
  | .file => readFile (base.filter (·.scheme = "file")) cut
  | .special =>
    let slashes := (cut.body.takeWhile Kind.special.isSlash).length
    match base with
    | some base =>
      if slashes < 2 ∧ base.scheme = scheme then readRelative base cut
      else afterSlashes scheme .special (cut.body.drop slashes) cut
    | none => afterSlashes scheme .special (cut.body.drop slashes) cut
  | .other =>
    match cut.body with
    | '/' :: '/' :: rest => afterSlashes scheme .other rest cut
    | '/' :: rest =>
      .ok ⟨scheme, none, extend .other [] rest, cut.queryText .other, cut.fragmentText⟩
    | body =>
      .ok ⟨scheme, none, .flat (encode isControl body), cut.queryText .other, cut.fragmentText⟩

/-- A text without the control characters and blanks around it and without tabs and line breaks. -/
def clean (text : String) : List Char :=
  let isOuter (c : Char) : Bool := c.toNat ≤ 0x20
  let trimmed := ((text.toList.dropWhile isOuter).reverse.dropWhile isOuter).reverse
  trimmed.filter fun c => ¬(c = '\t' ∨ c = '\n' ∨ c = '\r')

/-- Reads a text as a URL, relative to a base if there is one. -/
def read (base : Option Url) (text : String) : Except Fault Url :=
  let cleaned := clean text
  match scheme? cleaned with
  | some (scheme, rest) => readWithScheme base scheme rest
  | none =>
    match base with
    | none => .error .relativeWithoutBase
    | some base =>
      let cut := Cut.of cleaned
      if cleaned.head? = some '#' then .ok { base with fragment := cut.fragmentText }
      else
        match base.path with
        | .flat _ => .error .relativeToFlatBase
        | .segments _ => if base.scheme = "file" then readFile base cut else readRelative base cut

/-- The URL that a text denotes by itself. -/
def parse (text : String) : Except Fault Url := read none text

/-- The URL that a text denotes beside `base`. -/
def join (base : Url) (text : String) : Except Fault Url := read (some base) text

end OpenApi.Url
