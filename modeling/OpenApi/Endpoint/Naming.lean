import OpenApi.Endpoint.Basic
import OpenApi.Pattern.Replacement
import OpenApi.Text.Words

/-!
# Operation names

An operation is called by its declared name, recased if asked to, or else by its method and path:
slashes and underscores give way to a capital after them, and what is left of the braced segments is
capitalised as a whole.
-/

namespace OpenApi

namespace Endpoint.Naming

/-- A slash or an underscore, and the word character after it. -/
def segmentStart : Option Pattern.Compiled := Pattern.compile? "[/_]([A-Za-z0-9_])"

/-- A slash and a name in braces. -/
def bracedSegment : Option Pattern.Compiled := Pattern.compile? "/\\\x7b(.+?)\\\x7d"

/-- Replaces every match of a pattern by what becomes of its first group. -/
def replaceGroups (pattern : Option Pattern.Compiled) (write : List Char → List Char)
    (text : List Char) : List Char :=
  match pattern with
  | none => text
  | some pattern => pattern.replaceAll (fun groups => write ((groups.lookup 1).getD [])) text

/-- The first letter in upper case, all others in lower case. -/
def capitalise : List Char → List Char
  | [] => []
  | c :: rest => Text.toUpper c ++ rest.flatMap Text.toLower

end Endpoint.Naming

open Endpoint.Naming in
/-- The name derived from method and path. -/
def Method.fallbackName (method : Method) (path : String) : String :=
  let raised := replaceGroups segmentStart (·.flatMap Text.toUpper) path.toList
  method.name ++ String.ofList (replaceGroups bracedSegment capitalise raised)

/-- The name of an operation: a declared name that is not empty, or the derived one. -/
def Method.operationName (method : Method) (path : String) (declared : Option String)
    (nameCase : Option Text.NameCase) : String :=
  match declared.filter (· ≠ "") with
  | some name => (nameCase.map (·.apply name)).getD name
  | none => method.fallbackName path

end OpenApi
