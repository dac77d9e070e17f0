import OpenApi.Schema.Basic

/-!
# Type expressions

The small type language that schemas are lowered to, and its one written form. Unions and
intersections are built by functions that splice members of the same kind and drop a lone wrapper,
so what they build from such expressions is flat. When written, a union inside an intersection
stands in parentheses and nothing else does.
-/

namespace OpenApi

/-- A field of a record type. -/
structure Field (α : Type) where
  name : String
  optional : Bool
  type : α
  deriving Repr

/-- A type expression. -/
inductive TypeExpr where
  | named (name : String)
  | primitive (kind : Primitive)
  | stringLiteral (text : String)
  | literal (text : String)
  | null
  | unknown
  | openObject
  | array (item : TypeExpr)
  | record (fields : List (Field TypeExpr))
  | union (members : List TypeExpr)
  | intersection (members : List TypeExpr)
  deriving Repr, Inhabited

namespace TypeExpr

/-! ## Building -/

/-- The members that an expression contributes to a union. -/
def unionMembers : TypeExpr → List TypeExpr
  | union members => members
  | other => [other]

/-- The members that an expression contributes to an intersection. -/
def intersectionMembers : TypeExpr → List TypeExpr
  | intersection members => members
  | other => [other]

/-- The union of some types, with the members of unions among them spliced in; one member stands for
itself. -/
def unionOf (types : List TypeExpr) : TypeExpr :=
  match types.flatMap unionMembers with
  | [type] => type
  | flat => union flat

/-- The intersection of some types, with the members of intersections among them spliced in; one
member stands for itself. -/
def intersectionOf (types : List TypeExpr) : TypeExpr :=
  match types.flatMap intersectionMembers with
  | [type] => type
  | flat => intersection flat

/-- The type or null. -/
def orNull (type : TypeExpr) : TypeExpr := unionOf [type, null]

/-! ## Writing -/

/-- The name of a primitive type; integers are numbers. -/
def primitiveName : Primitive → String
  | .string => "string"
  | .number => "number"
  | .integer => "number"
  | .boolean => "boolean"

/-- A character that may start a bare field name. -/
def isNameStart (c : Char) : Bool := c.isAlpha || c = '_' || c = '$'

/-- Whether a field name is written without quotes. -/
def isBareName (name : List Char) : Bool :=
  match name with
  | c :: rest => isNameStart c && rest.all fun c => isNameStart c || c.isDigit
  | [] => false

/-- The written form of a character between quotes. -/
def escape (c : Char) : List Char :=
  if c = '\\' then ['\\', '\\']
  else if c = '\x27' then ['\\', '\x27']
  else if c = '\n' then ['\\', 'n']
  else [c]

/-- A text between quotes. -/
def quoted (text : List Char) : List Char := '\x27' :: (text.flatMap escape ++ ['\x27'])

/-- A field name, quoted unless it can stand bare. -/
def fieldName (name : String) : List Char :=
  if isBareName name.toList then name.toList else quoted name.toList

/-- Puts parentheses around the text of a union. -/
def parenthesised : TypeExpr → List Char → List Char
  | union _, text => '(' :: (text ++ [')'])
  | _, text => text

mutual

/-- The written form, as characters. -/
def chars : TypeExpr → List Char
  | named name => name.toList
  | primitive kind => (primitiveName kind).toList
  | stringLiteral text => quoted text.toList
  | literal text => text.toList
  | null => "null".toList
  | unknown => "unknown".toList
  | openObject => "object".toList
  | array item => "Array<".toList ++ chars item ++ ['>']
  | record [] => ['{', '}']
  | record (field :: rest) => ['{', ' '] ++ fieldChars field ++ fieldsChars rest ++ [' ', '}']
  | union members => unionChars members
  | intersection members => intersectionChars members

/-- The written form of a field. -/
def fieldChars : Field TypeExpr → List Char
  | ⟨name, optional, type⟩ =>
    fieldName name ++ (if optional then ['?', ':', ' '] else [':', ' ']) ++ chars type

/-- The written forms of the fields after the first, each after its separator. -/
def fieldsChars : List (Field TypeExpr) → List Char
  | [] => []
  | field :: rest => [';', ' '] ++ fieldChars field ++ fieldsChars rest

/-- The members of a union, separated by bars. -/
def unionChars : List TypeExpr → List Char
  | [] => []
  | [member] => chars member
  | member :: rest => chars member ++ [' ', '|', ' '] ++ unionChars rest

/-- The members of an intersection, separated by ampersands. -/
def intersectionChars : List TypeExpr → List Char
  | [] => []
  | [member] => parenthesised member (chars member)
  | member :: rest =>
    parenthesised member (chars member) ++ [' ', '&', ' '] ++ intersectionChars rest

end

/-- The written form. -/
def text (type : TypeExpr) : String := String.ofList type.chars

end TypeExpr

end OpenApi
