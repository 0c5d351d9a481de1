import Scriptlet.Operator

/-! Syntax trees. Parentheses leave no node, and an assignment is a binary expression. -/
namespace Scriptlet

inductive Expr where
  | number (value : Float)
  | string (value : String)
  | boolean (value : Bool)
  | identifier (name : String)
  | binary (op : Operator) (left right : Expr)
  deriving DecidableEq

/-- A statement. A conditional has one branch or two. -/
inductive Stmt where
  | ifThen (condition : Expr) (branch : Stmt)
  | ifThenElse (condition : Expr) (branch otherwise : Stmt)
  | expression (value : Expr)
  | block (body : List Stmt)

namespace Expr

/-- How tightly the outermost operator binds. -/
def precedence : Expr → Precedence
  | binary op _ _ => op.precedence
  | _ => .primary

/-- Whether two expressions have the same shape and equal leaves, numbers being compared as
numbers: zero equals minus zero. -/
def same : Expr → Expr → Bool
  | number x, number y => x == y
  | string s, string t => s == t
  | boolean a, boolean b => a == b
  | identifier a, identifier b => a == b
  | binary op left right, binary op' left' right' =>
    op == op' && same left left' && same right right'
  | _, _ => false

end Expr

namespace Stmt

mutual

/-- Whether two statements have the same shape and the same expressions. -/
def same : Stmt → Stmt → Bool
  | ifThen c s, ifThen c' s' => c.same c' && same s s'
  | ifThenElse c s e, ifThenElse c' s' e' => c.same c' && same s s' && same e e'
  | expression e, expression e' => e.same e'
  | block body, block body' => sameAll body body'
  | _, _ => false

/-- Statement by statement, for lists of one length. -/
def sameAll : List Stmt → List Stmt → Bool
  | [], [] => true
  | s :: rest, s' :: rest' => same s s' && sameAll rest rest'
  | _, _ => false

end

/-- The statements of a program root: those of a block, or the one statement. -/
def statements : Stmt → List Stmt
  | block body => body
  | s => [s]

end Stmt
end Scriptlet
