import OpenApi.Error
import OpenApi.Pattern.Replacement
import OpenApi.Settings

/-!
# Options

What a caller asks for, before it is checked. A path is changed either by a function or by replacing
the first match of a pattern, so asking for both is refused, and so is a pattern that is none.
-/

namespace OpenApi

/-- Which parameters and properties count as required whatever they declare. -/
inductive RequiredOverride where
  | all (required : Bool)
  | split (parameters properties : Bool)
  deriving DecidableEq, Repr

namespace RequiredOverride

/-- Whether every parameter counts as required. -/
def parameters : RequiredOverride → Bool
  | all required => required
  | split parameters _ => parameters

/-- Whether every property counts as required. -/
def properties : RequiredOverride → Bool
  | all required => required
  | split _ properties => properties

end RequiredOverride

/-- A pattern whose first match in a path is replaced. -/
structure PathReplacement where
  pattern : String
  replacement : String := ""
  deriving DecidableEq, Repr

/-- What a caller asks for. -/
structure Options where
  schemaNamespace : String := ""
  pathReplacement : Option PathReplacement := none
  required : RequiredOverride := .all false
  operationCase : Option Text.NameCase := none
  transformPath : Option (String → String) := none

namespace Options

instance : Inhabited Options := ⟨{}⟩

/-- How paths are transformed. -/
def pathTransform (options : Options) : Except Error (String → String) :=
  match options.transformPath, options.pathReplacement with
  | some _, some _ => .error (.options .twoTransforms)
  | some transform, none => .ok transform
  | none, some ⟨source, replacement⟩ =>
    match Pattern.compile? source with
    | some pattern => .ok (pattern.replaceFirst replacement)
    | none => .error (.options (.pattern source))
  | none, none => .ok id

/-- Checks what is asked for. -/
def resolve (options : Options) : Except Error Settings :=
  options.pathTransform.map fun transformPath =>
    { schemaNamespace := options.schemaNamespace
      transformPath
      requiredParameters := options.required.parameters
      requiredProperties := options.required.properties
      operationCase := options.operationCase }

end Options

end OpenApi
