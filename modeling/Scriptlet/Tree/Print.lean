import Scriptlet.Number.Print
import Scriptlet.Token.StringLiteral
import Scriptlet.Tree.Basic

/-! Source text for trees. An operand is put in parentheses only where it binds too loosely for its
place: one grouping step more tightly on the side that the operator does not group to. -/
namespace Scriptlet

namespace Expr

/-- The least binding strength of the left and of the right operand. -/
def operandPrecedence (op : Operator) : Precedence × Precedence :=
  if op.groupsRight then (op.precedence.tighter, op.precedence)
  else (op.precedence, op.precedence.tighter)

/-- A written operand, in parentheses if it binds more loosely than required. -/
def parenthesize (required actual : Precedence) (written : String) : String :=
  if actual.level < required.level then "(" ++ written ++ ")" else written

def render : Expr → String
  | number value => Number.plain value
  | string value => StringLiteral.write value
  | boolean true => "true"
  | boolean false => "false"
  | identifier name => name
  | binary op left right =>
    let required := operandPrecedence op
    parenthesize required.1 left.precedence left.render ++ " " ++ op.symbol ++ " "
      ++ parenthesize required.2 right.precedence right.render

end Expr

namespace Stmt

/-- The white space before a line at a depth of blocks. -/
def indentation (depth : Nat) : String := "".pushn ' ' (4 * depth)

mutual

/-- A statement as source text, starting in a line of the given depth. -/
def renderAt (depth : Nat) : Stmt → String
  | ifThen condition branch => "if (" ++ condition.render ++ ") " ++ renderAt depth branch
  | ifThenElse condition branch otherwise =>
    "if (" ++ condition.render ++ ") " ++ renderAt depth branch ++ " else "
      ++ renderAt depth otherwise
  | expression value => value.render ++ ";"
  | block [] => "\x7b\x7d"
  | block (first :: more) =>
    "\x7b\n" ++ renderLines (depth + 1) (first :: more) ++ indentation depth ++ "\x7d"

def renderLines (depth : Nat) : List Stmt → String
  | [] => ""
  | s :: rest => indentation depth ++ renderAt depth s ++ "\n" ++ renderLines depth rest

end

def render (s : Stmt) : String := renderAt 0 s

/-- A program as source text. A root block is written without its braces, so that reading the text
gives the same root. -/
def renderProgram (root : Stmt) : String := renderLines 0 root.statements

end Stmt
end Scriptlet
