import OpenApi.Yaml.Token

/-!
# Nodes of a YAML document

A text holds at most one document, and a document is a tree of scalars, sequences and mappings
whose aliases name earlier or enclosing nodes. Anchors are numbered: a given name takes the number
of names known before it, so a name given a second time and the next new name take the same number,
and of the nodes with one number all aliases mean the one that starts last. `fuel` bounds the
tokens read.
-/

namespace OpenApi.Yaml

/-- A node; an alias tells the number of its anchor. -/
inductive Node where
  | scalar (tag : Option String) (plain : Bool) (text : String)
  | sequence (tag : Option String) (items : List Node)
  | mapping (tag : Option String) (entries : List (Node × Node))
  | aliasOf (number : Nat)
  deriving Inhabited

/-- The node that stands where content is missing. -/
def Node.missing : Node := .scalar none true ""

/-- A document, which is empty if it has no root, with its anchored nodes in the order in which they
start. -/
structure Tree where
  root : Option Node
  anchored : List (Nat × Node)

/-- The node that aliases with a number mean. -/
def Tree.target? (tree : Tree) (number : Nat) : Option Node := tree.anchored.reverse.lookup number

/-! ## Size -/

mutual

/-- How many marks a node has: one for a scalar or an alias, the ends of a collection, and those of
what it holds. -/
def Node.size : Node → Nat
  | scalar .. => 1
  | sequence _ items => 2 + sizeItems items
  | mapping _ entries => 2 + sizeEntries entries
  | aliasOf _ => 1

/-- The marks of items. -/
def Node.sizeItems : List Node → Nat
  | [] => 0
  | item :: rest => item.size + sizeItems rest

/-- The marks of entries. -/
def Node.sizeEntries : List (Node × Node) → Nat
  | [] => 0
  | (key, value) :: rest => key.size + value.size + sizeEntries rest

end

/-! ## Reading tokens -/

/-- What is known while nodes are read. -/
structure Reading where
  tokens : List Token
  /-- The starts of tags that the handles stand for. -/
  handles : List (String × String) := []
  /-- The latest number of each name, each name once. -/
  names : List (String × Nat) := []
  /-- The anchored nodes; one that is not yet complete is an alias to itself. -/
  anchored : Array (Nat × Node) := #[]

/-- A step that reads tokens, and may refuse them. -/
abbrev Read := StateT Reading Option

namespace Read

/-- Refuses the tokens. -/
def refuse : Read α := fun _ => none

/-- The next token; none at the end. -/
def peek : Read (Option Token) := return (← get).tokens.head?

/-- Passes over a token. -/
def skip : Read Unit := modify fun r => { r with tokens := r.tokens.tail }

/-- The next token, which is passed over. -/
def take : Read (Option Token) := do
  let token ← peek
  skip
  return token

/-- Whether one of some tokens is next. -/
def atOneOf (tokens : List Token) : Read Bool := return ((← peek).map tokens.contains).getD false

/-- Passes over a token that must come next. -/
def expect (token : Token) : Read Unit := do
  if (← take) ≠ some token then refuse

/-- Reads a node, which is missing if one of some tokens is next. -/
def unlessAt (tokens : List Token) (read : Read Node) : Read Node := do
  if ← atOneOf tokens then return .missing else read

/-! ## Anchors and tags -/

/-- Gives a name to the node that starts; its place among the anchored nodes. -/
def openAnchor (name : String) : Read Nat := do
  let r ← get
  let number := r.names.length
  set { r with
    names := (name, number) :: r.names.filter (·.1 ≠ name)
    anchored := r.anchored.push (number, .aliasOf number) }
  return r.anchored.size

/-- Completes the anchored node at a place. -/
def closeAnchor (place : Nat) (node : Node) : Read Unit :=
  modify fun r => { r with anchored := r.anchored.modify place fun (number, _) => (number, node) }

/-- The tag that a handle and the text after it stand for. -/
def wholeTag (handle suffix : String) : Read String := do
  if handle.isEmpty then return suffix
  match (← get).handles.lookup handle with
  | some start => return start ++ suffix
  | none => refuse

/-- The name of an anchor, if one is next. -/
def anchorHere : Read (Option String) := do
  match ← peek with
  | some (.anchor name) => do skip; return some name
  | _ => return none

/-- A tag, if one is next. -/
def tagHere : Read (Option String) := do
  match ← peek with
  | some (.tag handle suffix) => do skip; return some (← wholeTag handle suffix)
  | _ => return none

/-- Anchor and tag of a node, in either order. -/
def properties : Read (Option String × Option String) := do
  match ← anchorHere with
  | some name => return (some name, ← tagHere)
  | none =>
    let tag ← tagHere
    return (← if tag.isSome then anchorHere else pure none, tag)

/-! ## Nodes -/

mutual

/-- A node. A block collection starts only where `block` allows it, and a sequence without a start
of its own only where `indentless` does. -/
def node (block indentless : Bool) : Nat → Read Node
  | 0 => refuse
  | fuel + 1 => do
    match ← peek with
    | some (.aliasOf name) =>
      skip
      match (← get).names.lookup name with
      | some number => return .aliasOf number
      | none => refuse
    | _ =>
      let (anchor, tag) ← properties
      let place ← anchor.mapM openAnchor
      let node ← content block indentless (anchor.isSome || tag.isSome) tag fuel
      place.forM (closeAnchor · node)
      return node

/-- What follows anchor and tag; it may be missing if there is one of them. A scalar with the tag
`!` counts as untagged. -/
def content (block indentless decorated : Bool) (tag : Option String) : Nat → Read Node
  | 0 => refuse
  | fuel + 1 => do
    match ← peek with
    | some (.scalar text plain) =>
      skip
      return .scalar (if tag = some "!" then none else tag) plain text
    | some .flowSequenceStart =>
      skip
      return .sequence tag (← flowItems true fuel)
    | some .flowMappingStart =>
      skip
      return .mapping tag (← flowEntries true fuel)
    | token =>
      if block ∧ token = some .blockSequenceStart then
        skip
        return .sequence tag (← blockItems fuel)
      else if block ∧ token = some .blockMappingStart then
        skip
        return .mapping tag (← blockEntries fuel)
      else if indentless ∧ token = some .blockEntry then
        return .sequence tag (← indentlessItems fuel)
      else if decorated then
        return .scalar tag true ""
      else refuse

/-- The items of a block sequence, with its end. -/
def blockItems : Nat → Read (List Node)
  | 0 => refuse
  | fuel + 1 => do
    match ← take with
    | some .blockEntry =>
      let item ← unlessAt [.blockEntry, .blockEnd] (node true false fuel)
      return item :: (← blockItems fuel)
    | some .blockEnd => return []
    | _ => refuse

/-- The items of a sequence that stands at the column of its mapping. -/
def indentlessItems : Nat → Read (List Node)
  | 0 => refuse
  | fuel + 1 => do
    if ← atOneOf [.blockEntry] then
      skip
      let item ← unlessAt [.blockEntry, .key, .value, .blockEnd] (node true false fuel)
      return item :: (← indentlessItems fuel)
    else return []

/-- The entries of a block mapping, with its end. -/
def blockEntries : Nat → Read (List (Node × Node))
  | 0 => refuse
  | fuel + 1 => do
    match ← take with
    | some .key =>
      let stops := [.key, .value, .blockEnd]
      let key ← unlessAt stops (node true true fuel)
      let value ←
        if ← atOneOf [.value] then
          skip
          unlessAt stops (node true true fuel)
        else pure .missing
      return (key, value) :: (← blockEntries fuel)
    | some .blockEnd => return []
    | _ => refuse

/-- The items of a flow sequence, with its bracket. -/
def flowItems (first : Bool) : Nat → Read (List Node)
  | 0 => refuse
  | fuel + 1 => do
    if ← atOneOf [.flowSequenceEnd] then
      skip
      return []
    if ¬first then expect .flowEntry
    if ← atOneOf [.flowSequenceEnd] then
      skip
      return []
    if ← atOneOf [.key] then
      skip
      let pair ← flowPair fuel
      return .mapping none [pair] :: (← flowItems false fuel)
    let item ← node false false fuel
    return item :: (← flowItems false fuel)

/-- A key and a value that are an item of a flow sequence. Where the key is missing, the mark after
it is passed over. -/
def flowPair : Nat → Read (Node × Node)
  | 0 => refuse
  | fuel + 1 => do
    let key ←
      if ← atOneOf [.value, .flowEntry, .flowSequenceEnd] then
        skip
        pure .missing
      else node false false fuel
    let value ←
      if ← atOneOf [.value] then
        skip
        unlessAt [.flowEntry, .flowSequenceEnd] (node false false fuel)
      else pure .missing
    return (key, value)

/-- The entries of a flow mapping, with its brace. -/
def flowEntries (first : Bool) : Nat → Read (List (Node × Node))
  | 0 => refuse
  | fuel + 1 => do
    if ← atOneOf [.flowMappingEnd] then
      skip
      return []
    if ¬first then expect .flowEntry
    if ← atOneOf [.flowMappingEnd] then
      skip
      return []
    if ← atOneOf [.key] then
      skip
      let key ← unlessAt [.value, .flowEntry, .flowMappingEnd] (node false false fuel)
      let value ←
        if ← atOneOf [.value] then
          skip
          unlessAt [.flowEntry, .flowMappingEnd] (node false false fuel)
        else pure .missing
      return (key, value) :: (← flowEntries false fuel)
    let key ← node false false fuel
    return (key, .missing) :: (← flowEntries false fuel)

end

/-! ## Documents -/

/-- The directives before a document. The version is given at most once and is 1.1 or 1.2; a handle
is given at most once. -/
def directives (versionGiven : Bool) : Nat → Read Unit
  | 0 => refuse
  | fuel + 1 => do
    match ← peek with
    | some (.versionDirective major minor) =>
      if versionGiven ∨ major ≠ 1 ∨ (minor ≠ 1 ∧ minor ≠ 2) then refuse
      skip
      directives true fuel
    | some (.tagDirective handle start) =>
      let r ← get
      if (r.handles.lookup handle).isSome then refuse
      set { r with handles := (handle, start) :: r.handles }
      skip
      directives versionGiven fuel
    | _ => pure ()

/-- Two handles need no directive. -/
def standardHandles : Read Unit :=
  modify fun r => { r with handles := r.handles ++ [("!", "!"), ("!!", "tag:yaml.org,2002:")] }

/-- Whether a token opens a document explicitly. -/
def opensDocument : Token → Bool
  | .versionDirective .. | .tagDirective .. | .documentStart => true
  | _ => false

/-- The root of a document, if there is one. -/
def document (fuel : Nat) : Read (Option Node) := do
  match ← peek with
  | none => return none
  | some token =>
    if opensDocument token then
      directives false fuel
      standardHandles
      expect .documentStart
      match ← peek with
      | none => return some .missing
      | some token =>
        if opensDocument token ∨ token = .documentEnd then return some .missing
        else node true false fuel
    else
      standardHandles
      node true false fuel

end Read

/-- The document of a text; none if it is malformed or holds more than one. -/
def Tree.ofText? (text : String) : Option Tree := do
  let tokens ← tokenize? text
  let (root, r) ← (Read.document (4 * tokens.length + 8)).run { tokens }
  if r.tokens.all (· = .documentEnd) then some ⟨root, r.anchored.toList⟩ else none

end OpenApi.Yaml
