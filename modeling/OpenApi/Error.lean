import OpenApi.Url.Basic

/-!
# Errors

Only loading a document, reading its path items and configuring the reading can fail; a schema that
cannot be lowered is typed `unknown` instead. Each error is its cause, and `Error.message` is the
one place that words it.
-/

namespace OpenApi

/-- Why a file could not be read. -/
inductive FileFault where
  | notFound
  | isDirectory
  | notDirectory
  | nulInName
  deriving DecidableEq, Repr

/-- What a reference stands for where it is followed to a component. -/
inductive ComponentKind where
  | parameter
  | requestBody
  | response
  deriving DecidableEq, Repr

/-- Why a document or a part of it could not be read. -/
inductive ParseFault where
  | documentText (uri : String)
  | pathItemCycle (path : String)
  | pathItemShape (path : String)
  | referenceCycle (kind : ComponentKind) (pointer : String)
  | componentShape (kind : ComponentKind) (pointer : String)
  | rootNotObject
  | componentsNotObject
  | schemasNotObject
  deriving DecidableEq, Repr

/-- Why a root document is none of OpenAPI 3. -/
inductive VersionFault where
  | openapi (version : String)
  | swagger (version : String)
  | missing
  deriving DecidableEq, Repr

/-- Why options were refused. -/
inductive OptionsFault where
  | text
  | pattern (source : String)
  | twoTransforms
  deriving DecidableEq, Repr

/-- Why a document could not be identified or obtained. -/
inductive RetrievalFault where
  | badUri (uri : String) (fault : Url.Fault)
  | noFileUri (path : String)
  | notAFile (uri : String)
  | badFileUri (uri : String)
  | noDocument (uri : String)
  | nestedTooDeeply (uri : String)
  deriving DecidableEq, Repr

/-- What can go wrong. -/
inductive Error where
  | file (fault : FileFault)
  | parse (fault : ParseFault)
  | unresolvedReference (reference base : String)
  | unsupportedVersion (fault : VersionFault)
  | options (fault : OptionsFault)
  | retrieval (fault : RetrievalFault)
  deriving DecidableEq, Repr

/-! ## Wording -/

/-- The wording of a file fault. -/
def FileFault.message : FileFault → String
  | notFound => "No such file or directory (os error 2)"
  | isDirectory => "Is a directory (os error 21)"
  | notDirectory => "Not a directory (os error 20)"
  | nulInName => "file name contained an unexpected NUL byte"

/-- The name of a kind of component. -/
def ComponentKind.name : ComponentKind → String
  | parameter => "parameter"
  | requestBody => "request body"
  | response => "response"

/-- The wording of a parse fault. -/
def ParseFault.message : ParseFault → String
  | documentText uri => "Failed to parse document '" ++ uri ++ "': malformed text"
  | pathItemCycle path => "Path item '" ++ path ++ "' is a reference cycle"
  | pathItemShape path => "Failed to parse path item '" ++ path ++ "': unexpected shape"
  | referenceCycle kind pointer => kind.name ++ " reference cycle at '" ++ pointer ++ "'"
  | componentShape kind pointer =>
    "Failed to parse " ++ kind.name ++ " at '" ++ pointer ++ "': unexpected shape"
  | rootNotObject => "OpenAPI document root must be an object"
  | componentsNotObject => "'components' must be an object"
  | schemasNotObject => "'components/schemas' must be an object"

/-- The wording of a version fault. -/
def VersionFault.message : VersionFault → String
  | openapi version => "openapi " ++ version
  | swagger version => "swagger " ++ version
  | missing => "missing 'openapi' version field"

/-- The wording of an options fault. -/
def OptionsFault.message : OptionsFault → String
  | text => "Failed to parse parser options: malformed options"
  | pattern source => "Invalid pathRewrite pattern '" ++ source ++ "': malformed pattern"
  | twoTransforms => "Set either a path transform closure or 'pathRewrite', not both"

/-- The wording of a retrieval fault. -/
def RetrievalFault.message : RetrievalFault → String
  | badUri uri fault => "Invalid document URI '" ++ uri ++ "': " ++ fault.message
  | noFileUri path => "Cannot build a file URI for '" ++ path ++ "'"
  | notAFile uri =>
    "Cannot fetch '" ++ uri ++ "': only file URIs are read, register other documents first"
  | badFileUri uri => "Invalid file URI '" ++ uri ++ "'"
  | noDocument uri => "No document at '" ++ uri ++ "'"
  | nestedTooDeeply uri => "References of '" ++ uri ++ "' are nested too deeply"

/-- The wording of an error. -/
def Error.message : Error → String
  | file fault => "IO Error: " ++ fault.message
  | parse fault => "Parse Error: " ++ fault.message
  | unresolvedReference reference base =>
    "Unresolved reference '" ++ reference ++ "' (from " ++ base ++ ")"
  | unsupportedVersion fault => "Unsupported document version: " ++ fault.message
  | options fault => "Config Error: " ++ fault.message
  | retrieval fault => "General Error: " ++ fault.message

end OpenApi
