/-! The kinds of tree nodes in JSON form. A node is an object: one field, the discriminant, holds
the tag of its kind, and the others hold its parts. -/
namespace Scriptlet

inductive NodeKind where
  | conditional
  | expressionStatement
  | block
  | number
  | string
  | boolean
  | identifier
  | binary
  deriving DecidableEq, Repr

inductive NodeFamily where
  | statement
  | expression
  deriving DecidableEq, Repr

namespace NodeKind

def tag : NodeKind → String
  | conditional => "IfStmt"
  | expressionStatement => "ExprStmt"
  | block => "BlockStmt"
  | number => "NumericLiteral"
  | string => "StringLiteral"
  | boolean => "BoolLiteral"
  | identifier => "Identifier"
  | binary => "BinaryExpr"

/-- How messages about the number of parts call a kind. -/
def title : NodeKind → String
  | conditional => "Stmt::If"
  | expressionStatement => "Stmt::Expr"
  | block => "Stmt::Block"
  | number => "Expr::Number"
  | string => "Expr::String"
  | boolean => "Expr::Bool"
  | identifier => "Expr::Identifier"
  | binary => "Expr::Binary"

def size : NodeKind → Nat
  | conditional | binary => 3
  | _ => 1

end NodeKind

namespace NodeFamily

/-- How messages call a family. -/
def title : NodeFamily → String
  | statement => "Stmt"
  | expression => "Expr"

/-- The kinds of a family; their places in the list are their numbers. -/
def kinds : NodeFamily → List NodeKind
  | statement => [.conditional, .expressionStatement, .block]
  | expression => [.number, .string, .boolean, .identifier, .binary]

end NodeFamily

namespace Discriminant

/-- The field that holds the tag, unless another one is asked for. -/
def standard : String := "$kind"

/-- The fields that hold the parts of nodes. -/
def partNames : List String :=
  ["cond", "then", "otherwise", "expr", "stmts", "value", "name", "op", "left", "right"]

/-- Whether a field can hold the tag: it needs a name, and one that no part has. -/
def isUsable (name : String) : Bool := !name.isEmpty && !partNames.contains name

end Discriminant
end Scriptlet
