import Scriptlet.Evaluation.Error
import Scriptlet.Number.Magnitude

/-! What operators do with the values of their operands. The logical operators and assignment are
not among them: they decide themselves what is evaluated. -/
namespace Scriptlet

namespace Number

/-- The order of two numbers; there is none with one that is not a number. -/
def order? (x y : Float) : Option Ordering :=
  if x < y then some .lt
  else if x == y then some .eq
  else if y < x then some .gt
  else none

end Number

namespace Operator

/-- The orders that a relation accepts. -/
def accepts? : Operator → Option (Ordering → Bool)
  | less => some (·.isLT)
  | lessEqual => some (·.isLE)
  | greater => some (·.isGT)
  | greaterEqual => some (·.isGE)
  | _ => none

/-- Relates two values of one type: numbers by size, strings by code points. -/
def relate (op : Operator) (accepts : Ordering → Bool) :
    Value → Value → Except ExecutionError.Cause Value
  | .number x, .number y => .ok (.boolean ((Number.order? x y).any accepts))
  | .string s, .string t => .ok (.boolean (accepts (compare s t)))
  | left, right => .error (.invalidOperands op left right)

/-- Computes with two values. -/
def calculate : Operator → Value → Value → Except ExecutionError.Cause Value
  | equal, left, right => .ok (.boolean (left.equals right))
  | notEqual, left, right => .ok (.boolean (!left.equals right))
  | plus, .number x, .number y => .ok (.number (x + y))
  | plus, .string s, .string t => .ok (.string (s ++ t))
  | minus, .number x, .number y => .ok (.number (x - y))
  | times, .number x, .number y => .ok (.number (x * y))
  | divide, .number x, .number y =>
    if y == 0 then .error (.divisionByZero divide) else .ok (.number (x / y))
  | remainder, .number x, .number y =>
    if y == 0 then .error (.divisionByZero remainder) else .ok (.number (Number.remainder x y))
  | op, left, right => .error (.invalidOperands op left right)

/-- The value of an operator for the values of its operands. -/
def apply (op : Operator) (left right : Value) : Except ExecutionError.Cause Value :=
  match op.accepts? with
  | some accepts => op.relate accepts left right
  | none => op.calculate left right

end Operator
end Scriptlet
