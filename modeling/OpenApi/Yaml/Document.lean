import OpenApi.Yaml.Node
import OpenApi.Yaml.Plain

/-!
# The value of a YAML document

Aliases are followed wherever they stand. What a document may cost is bounded twice: collections
nest at most 128 deep, and aliases are followed at most a hundred times as often as the document
has marks. Keys are the written text of scalars; local tags are refused.
-/

namespace OpenApi.Yaml

/-- A visit of nodes, which knows how many aliases may still be followed, and may fail. -/
abbrev Visit := StateT Nat Option

namespace Visit

/-- Fails. -/
def refuse : Visit α := fun _ => none

/-- Goes on only under a condition. -/
def require (condition : Bool) : Visit Unit := if condition then pure () else refuse

/-- Goes on with a value if there is one. -/
def ofOption (value : Option α) : Visit α := fun budget => value.map (·, budget)

end Visit

namespace Tree

/-- How deep collections may nest. -/
def depthLimit : Nat := 128

/-- How often aliases may be followed. -/
def jumpLimit (tree : Tree) : Nat := 100 * (tree.root.map Node.size).getD 0

/-- Runs a visit. -/
def visit? (tree : Tree) (visit : Visit α) : Option α := visit.run' tree.jumpLimit

/-- The node that a node means: itself unless it is an alias. -/
def follow (tree : Tree) : Node → Visit Node
  | .aliasOf number => do
    let budget ← get
    Visit.require (0 < budget)
    set (budget - 1)
    Visit.ofOption (tree.target? number)
  | node => pure node

/-- The written text of a scalar. -/
def scalarText (tree : Tree) (node : Node) : Visit String := do
  match ← tree.follow node with
  | .scalar _ _ text => return text
  | _ => Visit.refuse

/-- The value of a node that holds no more than `depth` nested collections. -/
def value (tree : Tree) : Nat → Node → Visit Json
  | 0, node => do
    match ← tree.follow node with
    | .scalar tag plain text => Visit.ofOption (scalarValue? tag plain text)
    | _ => Visit.refuse
  | depth + 1, node => do
    match ← tree.follow node with
    | .scalar tag plain text => Visit.ofOption (scalarValue? tag plain text)
    | .sequence tag items =>
      Visit.require (!isLocalTag tag)
      return .array (← items.mapM (tree.value depth))
    | .mapping tag entries =>
      Visit.require (!isLocalTag tag)
      let pairs ← entries.mapM fun (key, item) => do
        let name ← tree.scalarText key
        return (name, ← tree.value depth item)
      return .object (Members.ofPairs pairs)
    | .aliasOf _ => Visit.refuse

end Tree

/-- The value that a text denotes; an empty text denotes null. -/
def parse? (text : String) : Option Json := do
  let tree ← Tree.ofText? text
  match tree.root with
  | none => some .null
  | some root => tree.visit? (tree.value Tree.depthLimit root)

end OpenApi.Yaml
