import OpenApi.Bundle.Position
import OpenApi.Bundle.Source
import OpenApi.Document
import OpenApi.Url.Parser
import OpenApi.Yaml.Document

/-!
# Bundling

A root document is made self-contained by a walk over its references. References into the root keep
their fragment. A target in another document is taken in once: as a component schema if its
fragment names one or a whole document stands at a schema position, and otherwise in the place of
the first reference to it; every later reference points to where it went. What is taken in is
walked in turn, relative to its own document.

Targets are known by their URL as joined, fragment included. The walk over one tree is structural
recursion; `fuel` counts how many targets are nested in each other, and running out of it is an
error of its own that no other outcome shares.
-/

namespace OpenApi

/-! ## Documents at hand -/

/-- The documents at hand, by URL. -/
abbrev Shelf := List (Url × Json)

/-- Puts a document on the shelf, in the place of one with the same URL. -/
def Shelf.put (url : Url) (tree : Json) : Shelf → Shelf
  | [] => [(url, tree)]
  | (key, old) :: rest =>
    if key = url then (key, tree) :: rest else (key, old) :: Shelf.put url tree rest

/-- What a source says about a URL, read as a document. -/
def Source.document (source : Source) (url : Url) : Except Error Json :=
  match source.fetch url with
  | .error error => .error error
  | .ok text =>
    match Yaml.parse? text with
    | some tree => .ok tree
    | none => .error (.parse (.documentText url.text))

/-! ## State -/

/-- What a walk has done so far. -/
structure Progress where
  /-- The documents at hand. -/
  shelf : Shelf
  /-- The component schemas taken in, by name. -/
  hoisted : Members := []
  /-- The names given to targets. -/
  names : List (Url × String) := []
  /-- Where targets were taken in first. -/
  places : List (Url × Pointer) := []
  /-- The names that component schemas already have. -/
  taken : List String := []

/-- A step of a walk; a failed one keeps its progress. -/
abbrev Walk := EStateM Error Progress

namespace Walk

/-- The document at a URL, from the shelf or else from the source, which puts it on the shelf. -/
def document (source : Source) (url : Url) : Walk Json := do
  match (← get).shelf.lookup url with
  | some tree => return tree
  | none =>
    match source.document url with
    | .error error => throw error
    | .ok tree =>
      modify fun progress => { progress with shelf := progress.shelf.put url tree }
      return tree

/-- The node that a reference text beside `base` designates in the document at `url`. -/
def target (source : Source) (base url : Url) (fragment text : String) : Walk Json := do
  let tree ← tryCatch (some <$> document source url) fun _ => pure none
  match tree.bind (·.resolve? fragment) with
  | some node => return node
  | none => throw (.unresolvedReference text base.text)

/-- The wanted name if it is free, and otherwise that name with the least number that makes it so.
-/
def freeName (taken : List String) (wanted : String) : String :=
  if taken.contains wanted then
    let candidates := (List.range (taken.length + 1)).map fun k => wanted ++ toString (k + 1)
    (candidates.find? (!taken.contains ·)).getD wanted
  else wanted

/-- Takes a free name for a target. -/
def takeName (target : Url) (wanted : String) : Walk String := do
  let name := freeName (← get).taken wanted
  modify fun progress =>
    { progress with taken := name :: progress.taken, names := (target, name) :: progress.names }
  return name

end Walk

/-! ## Walking a tree -/

/-- The value with its `$ref` replaced. -/
def Json.withReference (text : String) : Json → Json
  | .object members => .object (Members.set "$ref" (.string text) members)
  | value => value

/-- What is done with a Reference Object: its value and text, and where it stands. -/
abbrev OnReference := Json → String → Pointer → Position → Walk Json

mutual

/-- Replaces every outermost Reference Object of a tree, in document order. -/
def Json.walk (onReference : OnReference) (pointer : Pointer) (position : Position) :
    Json → Walk Json
  | .object members =>
    match (Json.object members).reference? with
    | some text => onReference (.object members) text pointer position
    | none => .object <$> Json.walkMembers onReference pointer position members
  | .array items => .array <$> Json.walkItems onReference pointer position.item 0 items
  | value => pure value

/-- Walks items from an index on. -/
def Json.walkItems (onReference : OnReference) (pointer : Pointer) (position : Position)
    (index : Nat) : List Json → Walk (List Json)
  | [] => pure []
  | item :: rest => do
    let item ← item.walk onReference (pointer.item index) position
    let rest ← Json.walkItems onReference pointer position (index + 1) rest
    return item :: rest

/-- Walks members. -/
def Json.walkMembers (onReference : OnReference) (pointer : Pointer) (position : Position) :
    List (String × Json) → Walk (List (String × Json))
  | [] => pure []
  | (name, value) :: rest => do
    let value ← value.walk onReference (pointer.member name) (position.child pointer name)
    let rest ← Json.walkMembers onReference pointer position rest
    return (name, value) :: rest

end

/-! ## References -/

/-- The name under which a target becomes a component schema, if it does: its own name where the
fragment leads to a declared schema, and the stem of the file name where a whole document stands at
a schema position. Empty tokens of the fragment do not count. -/
def hoistName? (document : Url) (fragment : String) (position : Position) : Option String :=
  let tokens := (Text.splitAt '/' fragment.toList).filter (¬·.isEmpty)
  match tokens.map fun token => Pointer.decodeToken (String.ofList token) with
  | [] =>
    if position = .schema then
      let stem := ((document.lastSegment?.getD "").toList).takeWhile (· ≠ '.')
      if stem.isEmpty then none else some (Pointer.decodeToken (String.ofList stem))
    else none
  | [definitions, name] => if definitions = "definitions" then some name else none
  | [components, schemas, name] =>
    if components = "components" ∧ schemas = "schemas" then some name else none
  | _ => none

/-- The URL that a reference text beside `base` denotes. -/
def joinReference (base : Url) (text : String) : Except Error Url :=
  match base.join text with
  | .ok url => .ok url
  | .error _ => .error (.unresolvedReference text base.text)

/-- Replaces a Reference Object of the document `base`. -/
def replaceReference (source : Source) (rootUrl : Url) : Nat → Url → OnReference
  | 0, base, _, _, _, _ => throw (.retrieval (.nestedTooDeeply base.text))
  | fuel + 1, base, value, text, pointer, position => do
    let target ←
      match joinReference base text with
      | .ok url => pure url
      | .error error => throw error
    let document := target.document
    let fragment := target.fragment.getD ""
    let take (pointer : Pointer) (position : Position) : Walk Json := do
      let node ← Walk.target source base document fragment text
      node.walk (replaceReference source rootUrl fuel document) pointer position
    let takeHere : Walk Json := do
      modify fun progress => { progress with places := (target, pointer) :: progress.places }
      take pointer (.ofPointer pointer)
    if document = rootUrl then return value.withReference ("#" ++ fragment)
    let progress ← get
    match progress.names.lookup target with
    | some name =>
      let home := Pointer.componentSchemas.member name
      if pointer = home ∧ (progress.hoisted.lookup name).isNone then takeHere
      else return value.withReference ("#" ++ home.text)
    | none =>
      match progress.places.lookup target with
      | some place => return value.withReference ("#" ++ place.text)
      | none =>
        match hoistName? document fragment position with
        | none => takeHere
        | some wanted =>
          let name ← Walk.takeName target wanted
          let home := Pointer.componentSchemas.member name
          let schema ← take home .schema
          modify fun progress =>
            { progress with hoisted := Members.set name schema progress.hoisted }
          return value.withReference ("#" ++ home.text)

/-! ## Whole documents -/

/-- Accepts the root documents of OpenAPI 3. -/
def checkVersion (root : Json) : Except Error Unit :=
  match (root.member? "openapi").bind Json.asString? with
  | some version =>
    if "3.".toList.isPrefixOf version.toList then .ok ()
    else .error (.unsupportedVersion (.openapi version))
  | none =>
    match (root.member? "swagger").bind Json.asString? with
    | some version => .error (.unsupportedVersion (.swagger version))
    | none => .error (.unsupportedVersion .missing)

/-- Reserves the names of the component schemas that are references to other documents: the first
name for each target. -/
def reserveNames (rootUrl : Url) :
    Members → List (Url × String) → Except Error (List (Url × String))
  | [], names => .ok names
  | (name, schema) :: rest, names =>
    match schema.reference? with
    | none => reserveNames rootUrl rest names
    | some text =>
      match joinReference rootUrl text with
      | .error error => .error error
      | .ok target =>
        if target.document ≠ rootUrl ∧ (names.lookup target).isNone then
          reserveNames rootUrl rest (names ++ [(target, name)])
        else reserveNames rootUrl rest names

/-- Adds members to the object that a member holds, which is created last if absent. -/
def Members.extend (name : String) (fault : ParseFault)
    (change : Members → Except Error Members) (members : Members) : Except Error Members :=
  match members.lookup name with
  | none => (change []).map fun found => Members.set name (.object found) members
  | some (.object found) => (change found).map fun found => Members.set name (.object found) members
  | some _ => .error (.parse fault)

/-- Adds component schemas to a root document, each under its own name. -/
def addSchemas (hoisted : Members) (root : Json) : Except Error Json :=
  match root with
  | .object members =>
    let add (schemas : Members) : Members :=
      hoisted.foldl (fun schemas (name, schema) => Members.set name schema schemas) schemas
    let changed :=
      Members.extend "components" .componentsNotObject
        (Members.extend "schemas" .schemasNotObject fun schemas => .ok (add schemas)) members
    changed.map .object
  | _ => .error (.parse .rootNotObject)

/-- Raises the error of a computation without state. -/
def Walk.ofExcept : Except Error α → Walk α
  | .ok value => pure value
  | .error error => throw error

/-- Makes the document at a URL self-contained. -/
def bundleAt (source : Source) (fuel : Nat) (url : Url) : Walk Document := do
  let root ← Walk.document source url
  Walk.ofExcept (checkVersion root)
  let declared := root.componentSchemas?.getD []
  let names ← Walk.ofExcept (reserveNames url declared [])
  modify fun progress => { progress with names, taken := declared.names }
  let walked ← root.walk (replaceReference source url fuel url) .root .other
  let hoisted := (← get).hoisted
  let bundled ← if hoisted.isEmpty then pure walked else Walk.ofExcept (addSchemas hoisted walked)
  Walk.ofExcept (Document.ofTree url.text bundled)

end OpenApi
