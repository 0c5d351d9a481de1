import Scriptlet.Tree.Print
import Scriptlet.Value

/-! Why a program fails while it runs, and in which statement. -/
namespace Scriptlet

inductive ExecutionError.Cause where
  | unboundIdentifier (name : String)
  | invalidOperands (op : Operator) (left right : Value)
  | nonBooleanCondition (value : Value)
  | nonBooleanOperand (op : Operator) (value : Value)
  | invalidAssignmentTarget (target : Expr)
  | divisionByZero (op : Operator)
  /-- One more statement or expression would be nested deeper than the limit. -/
  | depthLimit (limit : Nat)
  deriving DecidableEq

/-- The statement that failed: an expression statement, or the condition or the taken branch of a
conditional. -/
inductive ExecutionError.Site where
  | expression (value : Expr)
  | conditional (condition : Expr)
  deriving DecidableEq

/-- An execution error. Evaluating a bare expression fails in no statement. -/
structure ExecutionError where
  cause : ExecutionError.Cause
  site : Option ExecutionError.Site
  deriving DecidableEq

namespace ExecutionError

def Cause.category : Cause → String
  | unboundIdentifier _ => "NameError"
  | invalidOperands _ _ _ | nonBooleanCondition _ | nonBooleanOperand _ _
  | invalidAssignmentTarget _ => "TypeError"
  | divisionByZero _ => "ArithmeticError"
  | depthLimit _ => "RecursionLimitError"

def Cause.message : Cause → String
  | unboundIdentifier name => "Name error: unbound identifier `" ++ name ++ "`"
  | invalidOperands op left right =>
    "Type error: invalid operands for `" ++ op.symbol ++ "`: " ++ left.describe ++ " and "
      ++ right.describe
  | nonBooleanCondition value =>
    "Type error: condition must be a boolean, found " ++ value.describe
  | nonBooleanOperand op value =>
    "Type error: operands of `" ++ op.symbol ++ "` must be booleans, found " ++ value.describe
  | invalidAssignmentTarget target => "Type error: cannot assign to `" ++ target.render ++ "`"
  | divisionByZero op => "Arithmetic error: `" ++ op.symbol ++ "` by zero"
  | depthLimit limit =>
    "Recursion limit error: evaluation nested deeper than " ++ toString limit ++ " levels"

/-- The failing statement as source text, a conditional without its branches. -/
def Site.render : Site → String
  | expression value => value.render ++ ";"
  | conditional condition => "if (" ++ condition.render ++ ")"

def message (e : ExecutionError) : String :=
  match e.site with
  | some site => e.cause.message ++ "\n  while executing: " ++ site.render
  | none => e.cause.message

/-- An error that no statement has been named for yet. -/
def bare (cause : Cause) : ExecutionError := ⟨cause, none⟩

/-- The error, seen from a statement around it: the innermost one is named. -/
def within (site : Site) (e : ExecutionError) : ExecutionError :=
  match e.site with
  | some _ => e
  | none => { e with site := some site }

end ExecutionError
end Scriptlet
