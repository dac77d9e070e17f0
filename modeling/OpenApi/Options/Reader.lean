import OpenApi.Options.Basic
import OpenApi.Yaml.Document

/-!
# Options from YAML text

Options are read from the nodes of a document and not from its value, because a text option takes
whatever a scalar is written as. Unknown keys are passed over unread; a known key given twice is
refused. Local tags are refused only where the kind of a value decides what it means.
-/

namespace OpenApi

namespace Yaml.Tree

/-- The entries of a node that is read as a record: a mapping, or nothing at all. -/
def recordEntries (tree : Tree) (node : Node) : Visit (List (Node × Node)) := do
  match ← tree.follow node with
  | .mapping _ entries => return entries
  | .scalar _ true "" => return []
  | _ => Visit.refuse

/-- The entries of a record whose keys are known, by key. -/
def recordFields (tree : Tree) (known : List String) (node : Node) :
    Visit (List (String × Node)) := do
  let entries ← tree.recordEntries node
  let fields ← entries.filterMapM fun (key, value) => do
    let name ← tree.scalarText key
    return if known.contains name then some (name, value) else none
  Visit.require (fields.map Prod.fst).Nodup
  return fields

/-- An option that may be absent: nothing and null are absence. The tag of null demands a null. -/
def present (tree : Tree) (node : Node) : Visit (Option Node) := do
  match ← tree.follow node with
  | .scalar none true text =>
    return if text.isEmpty ∨ isNullWord text then none else some (.scalar none true text)
  | .scalar (some tag) true text =>
    if tag = coreTag "null" then
      Visit.require (isNullWord text)
      return none
    else return some (.scalar (some tag) true text)
  | node => return some node

/-- Fails unless the nodes below a node can be read as some value, whatever its keys are. -/
def readable (tree : Tree) : Nat → Node → Visit Unit
  | 0, node => do
    match ← tree.follow node with
    | .scalar tag plain text => discard (Visit.ofOption (scalarValue? tag plain text))
    | _ => Visit.refuse
  | depth + 1, node => do
    match ← tree.follow node with
    | .scalar tag plain text => discard (Visit.ofOption (scalarValue? tag plain text))
    | .sequence tag items =>
      Visit.require (!isLocalTag tag)
      items.forM (tree.readable depth)
    | .mapping tag entries =>
      Visit.require (!isLocalTag tag)
      entries.forM fun (key, value) => do
        tree.readable depth key
        tree.readable depth value
    | .aliasOf _ => Visit.refuse

end Yaml.Tree

namespace Options

open Yaml

/-- The case of a name. -/
def caseNamed? (name : String) : Option Text.NameCase :=
  if name = "camel" then some .camel
  else if name = "pascal" then some .pascal
  else if name = "snake" then some .snake
  else none

/-- The case that a node asks for, by its text or by a local tag without content. -/
def caseOf (tree : Tree) (node : Node) : Visit Text.NameCase := do
  match ← tree.follow node with
  | .scalar tag plain text =>
    if isLocalTag tag then
      Visit.require (plain && (text.isEmpty || isNullWord text))
      Visit.ofOption (caseNamed? (String.ofList ((tag.getD "").toList.drop 1)))
    else Visit.ofOption (caseNamed? text)
  | _ => Visit.refuse

/-- The replacement in paths that a node asks for. -/
def pathReplacementOf (tree : Tree) (node : Node) : Visit PathReplacement := do
  let fields ← tree.recordFields ["pattern", "replacement"] node
  let texts ← fields.mapM fun (name, value) => return (name, ← tree.scalarText value)
  return ⟨← Visit.ofOption (texts.lookup "pattern"), (texts.lookup "replacement").getD ""⟩

/-- The name of a key of the pair form; its keys may also be given by their places. -/
def overrideKey? : Json → Option String
  | .string name => some name
  | .number (.integer value) =>
    if value = 0 then some "parameters"
    else if value = 1 then some "schemas"
    else if 0 < value then some ""
    else none
  | _ => none

/-- The override that a node asks for: one Boolean for both, or a pair. -/
def requiredOf (tree : Tree) (node : Node) : Visit RequiredOverride := do
  match ← tree.follow node with
  | .scalar tag plain text =>
    match scalarValue? tag plain text with
    | some (.bool required) => return .all required
    | _ => Visit.refuse
  | .mapping tag entries =>
    Visit.require (!isLocalTag tag)
    let depth := Tree.depthLimit - 2
    let flags ← entries.filterMapM fun (key, value) => do
      let name ← Visit.ofOption (overrideKey? (← tree.value 0 key))
      if name = "parameters" ∨ name = "schemas" then
        return some (name, ← Visit.ofOption (← tree.value 0 value).asBool?)
      else
        tree.readable depth value
        return none
    Visit.require (flags.map Prod.fst).Nodup
    return .split ((flags.lookup "parameters").getD false) ((flags.lookup "schemas").getD false)
  | _ => Visit.refuse

/-- The options that the root of a document asks for. -/
def ofRoot (tree : Tree) (root : Node) : Visit Options := do
  let fields ← tree.recordFields
    ["schemaNamespace", "pathRewrite", "ignoreRequiredProp", "transformOperationId"] root
  let present (name : String) : Visit (Option Node) :=
    return (← (fields.lookup name).mapM tree.present).join
  let schemaNamespace ← (fields.lookup "schemaNamespace").mapM tree.scalarText
  let pathReplacement ← (← present "pathRewrite").mapM (pathReplacementOf tree)
  let required ← (fields.lookup "ignoreRequiredProp").mapM (requiredOf tree)
  let operationCase ← (← present "transformOperationId").mapM (caseOf tree)
  return {
    schemaNamespace := schemaNamespace.getD ""
    pathReplacement
    required := required.getD (.all false)
    operationCase }

/-- The options that a text asks for; an empty text asks for nothing. -/
def ofText? (text : String) : Option Options := do
  let tree ← Tree.ofText? text
  match tree.root with
  | none => some {}
  | some root => tree.visit? (ofRoot tree root)

/-- The options that a text asks for. -/
def ofText (text : String) : Except Error Options :=
  match ofText? text with
  | some options => .ok options
  | none => .error (.options .text)

end Options

end OpenApi
