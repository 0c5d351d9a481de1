import Scriptlet.Tree.Basic
import Scriptlet.Tree.JsonError

/-! Trees as JSON values. -/
namespace Scriptlet

def NodeKind.toJson (kind : NodeKind) (discriminant : String) (parts : List (String × Json)) :
    Json :=
  .ofFields ((discriminant, .string kind.tag) :: parts)

/-- An expression as a JSON value. JSON has no number for what is not finite. -/
def Expr.encode (discriminant : String) : Expr → Json
  | number value =>
    NodeKind.number.toJson discriminant
      [("value", if value.isFinite then .float value else .null)]
  | string value => NodeKind.string.toJson discriminant [("value", .string value)]
  | boolean value => NodeKind.boolean.toJson discriminant [("value", .boolean value)]
  | identifier name => NodeKind.identifier.toJson discriminant [("name", .string name)]
  | binary op left right =>
    NodeKind.binary.toJson discriminant
      [("op", .string op.symbol), ("left", left.encode discriminant),
        ("right", right.encode discriminant)]

namespace Stmt

mutual

/-- A statement as a JSON value. A missing branch is left out. -/
def encode (discriminant : String) : Stmt → Json
  | ifThen condition branch =>
    NodeKind.conditional.toJson discriminant
      [("cond", condition.encode discriminant), ("then", encode discriminant branch)]
  | ifThenElse condition branch otherwise =>
    NodeKind.conditional.toJson discriminant
      [("cond", condition.encode discriminant), ("then", encode discriminant branch),
        ("otherwise", encode discriminant otherwise)]
  | expression value =>
    NodeKind.expressionStatement.toJson discriminant [("expr", value.encode discriminant)]
  | block body =>
    NodeKind.block.toJson discriminant [("stmts", .array (encodeAll discriminant body))]

def encodeAll (discriminant : String) : List Stmt → List Json
  | [] => []
  | s :: rest => encode discriminant s :: encodeAll discriminant rest

end

/-- A tree as a JSON value, with the tags in a field that can hold them. -/
def toJson (discriminant : String) (s : Stmt) : Except TreeError Json :=
  if Discriminant.isUsable discriminant then .ok (s.encode discriminant)
  else .error (.unusableDiscriminant discriminant)

end Stmt
end Scriptlet
