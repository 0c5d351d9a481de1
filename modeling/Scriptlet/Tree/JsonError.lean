import Scriptlet.Json.Basic
import Scriptlet.Number.Print
import Scriptlet.Operator
import Scriptlet.Text.Quoted
import Scriptlet.Tree.Kind

/-! Why a JSON value is not a tree. -/
namespace Scriptlet

/-- A value as messages show it: scalars with their contents, lists and objects by name only. -/
def Json.describe : Json → String
  | null => "null"
  | boolean true => "boolean `true`"
  | boolean false => "boolean `false`"
  | integer value => "integer `" ++ toString value ++ "`"
  | float value => "floating point `" ++ Number.json value ++ "`"
  | string value => "string " ++ Text.quoted value
  | array _ => "sequence"
  | object _ => "map"

/-- What a place in a tree can hold. -/
inductive Shape where
  | node (family : NodeFamily)
  | tag
  | number
  | string
  | boolean
  | list
  | operator
  | nothing
  deriving DecidableEq, Repr

/-- How messages call what a place can hold. -/
def Shape.title : Shape → String
  | node family => "internally tagged enum " ++ family.title
  | tag => "variant identifier"
  | number => "f64"
  | string => "a string"
  | boolean => "a boolean"
  | list => "a sequence"
  | operator => "string or map"
  | nothing => "unit"

/-- Why a JSON value is not a tree. -/
inductive TreeError where
  /-- The tag cannot be held by this field. -/
  | unusableDiscriminant (name : String)
  | wrongShape (found : Json) (expected : Shape)
  | missingField (name : String)
  | unknownTag (tag : String) (family : NodeFamily)
  /-- No kind of the family has this number. -/
  | unknownTagNumber (number : Int) (family : NodeFamily)
  | unknownOperator (symbol : String)
  /-- An operator in the form of an object has exactly one field. -/
  | operatorObject
  /-- A node in the form of a list has too few parts. -/
  | tooFewParts (count : Nat) (kind : NodeKind)
  /-- A node in the form of a list has too many parts. -/
  | tooManyParts (count : Nat) (kind : NodeKind)

namespace TreeError

def elements (count : Nat) : String :=
  toString count ++ (if count = 1 then " element" else " elements")

def oneOf (names : List String) : String :=
  "expected one of " ++ String.intercalate ", " (names.map fun name => "`" ++ name ++ "`")

def message : TreeError → String
  | unusableDiscriminant name => "\"" ++ name ++ "\" cannot be used as a discriminant"
  | wrongShape found expected =>
    "invalid type: " ++ found.describe ++ ", expected " ++ expected.title
  | missingField name => "missing field `" ++ name ++ "`"
  | unknownTag tag family =>
    "unknown variant `" ++ tag ++ "`, " ++ oneOf (family.kinds.map (·.tag))
  | unknownTagNumber number family =>
    "invalid value: integer `" ++ toString number ++ "`, expected variant index 0 <= i < "
      ++ toString family.kinds.length
  | unknownOperator symbol =>
    "unknown variant `" ++ symbol ++ "`, " ++ oneOf (Operator.all.map (·.symbol))
  | operatorObject => "invalid value: map, expected map with a single key"
  | tooFewParts count kind =>
    "invalid length " ++ toString count ++ ", expected struct variant " ++ kind.title ++ " with "
      ++ elements kind.size
  | tooManyParts count kind =>
    "invalid length " ++ toString count ++ ", expected " ++ elements kind.size ++ " in sequence"

end TreeError
end Scriptlet
