import OpenApi.Document
import OpenApi.Text.Words

/-!
# Settings

The checked settings under which a document is read, and the pair of both that everything about
types and endpoints is asked of.
-/

namespace OpenApi

/-- Checked settings. -/
structure Settings where
  /-- Put before referenced type names, with a dot, where names are qualified. -/
  schemaNamespace : String := ""
  /-- Applied to the path of every endpoint. -/
  transformPath : String → String := id
  /-- Whether every parameter counts as required. -/
  requiredParameters : Bool := false
  /-- Whether every property counts as required. -/
  requiredProperties : Bool := false
  /-- The case that declared operation names are given. -/
  operationCase : Option Text.NameCase := none

instance : Inhabited Settings := ⟨{}⟩

/-- A document read under settings. -/
structure Api where
  document : Document
  settings : Settings
  deriving Inhabited

end OpenApi
