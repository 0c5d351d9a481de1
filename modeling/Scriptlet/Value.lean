import Scriptlet.Number.Print
import Scriptlet.Text.Quoted

/-! Values that programs compute. -/
namespace Scriptlet

/-- A value. Statements that compute nothing have the value `unit`. -/
inductive Value where
  | number (value : Float)
  | string (value : String)
  | boolean (value : Bool)
  | unit
  deriving DecidableEq

namespace Value

def typeName : Value → String
  | number _ => "number"
  | string _ => "string"
  | boolean _ => "boolean"
  | unit => "unit"

def render : Value → String
  | number value => Number.plain value
  | string value => Text.quoted value
  | boolean true => "true"
  | boolean false => "false"
  | unit => "()"

/-- A value and its type, as messages show it. -/
def describe (v : Value) : String := v.render ++ " (" ++ v.typeName ++ ")"

/-- Equality as programs see it. Values of two types are never equal, zero equals minus zero, and
no number equals one that is not a number. -/
def equals : Value → Value → Bool
  | number x, number y => x == y
  | string s, string t => s == t
  | boolean a, boolean b => a == b
  | unit, unit => true
  | _, _ => false

end Value
end Scriptlet
