import Scriptlet.Tree.Basic
import Scriptlet.Tree.JsonError

/-! Trees from JSON values. A node is an object with a tag or a list of the tag and the parts. The
tag is looked at first. The parts of an object are then read in the order of their keys, so that the
first bad one is the error, and other fields are passed over; missing parts are noticed after
that. -/
namespace Scriptlet.Tree

/-- The kind that a tag names. Below the root a kind may be given by its number. -/
def readTag (isRoot : Bool) (family : NodeFamily) : Json → Except TreeError NodeKind
  | .string tag =>
    match family.kinds.find? (·.tag = tag) with
    | some kind => .ok kind
    | none => .error (.unknownTag tag family)
  | .integer number =>
    if isRoot ∨ number < 0 then .error (.wrongShape (.integer number) .tag)
    else match family.kinds[number.toNat]? with
      | some kind => .ok kind
      | none => .error (.unknownTagNumber number family)
  | other => .error (.wrongShape other .tag)

/-- The kind of a node in the form of an object. -/
def readKind (isRoot : Bool) (family : NodeFamily) (fields : List (String × Json)) :
    Except TreeError NodeKind :=
  match fields.lookup Discriminant.standard with
  | some tag => readTag isRoot family tag
  | none => .error (.missingField Discriminant.standard)

def readNumber : Json → Except TreeError Float
  | .integer value => .ok (Json.floatOfInt value)
  | .float value => .ok value
  | other => .error (.wrongShape other .number)

def readString : Json → Except TreeError String
  | .string value => .ok value
  | other => .error (.wrongShape other .string)

def readBoolean : Json → Except TreeError Bool
  | .boolean value => .ok value
  | other => .error (.wrongShape other .boolean)

def readSymbol (symbol : String) : Except TreeError Operator :=
  match Operator.ofSymbol? symbol with
  | some op => .ok op
  | none => .error (.unknownOperator symbol)

/-- An operator: its symbol, or an object whose one key is the symbol and that holds nothing. -/
def readOperator : Json → Except TreeError Operator
  | .string symbol => readSymbol symbol
  | .object [(symbol, content)] => do
    let op ← readSymbol symbol
    match content with
    | .null | .object [] => return op
    | other => .error (.wrongShape other .nothing)
  | .object _ => .error .operatorObject
  | other => .error (.wrongShape other .operator)

/-- The one part of a leaf in the form of an object. -/
def leafField (key : String) (read : Json → Except TreeError α) (fields : List (String × Json)) :
    Except TreeError α :=
  match fields.lookup key with
  | some value => read value
  | none => .error (.missingField key)

/-- The one part of a leaf in the form of a list. -/
def leafItem (kind : NodeKind) (read : Json → Except TreeError α) :
    List Json → Except TreeError α
  | [] => .error (.tooFewParts 0 kind)
  | item :: more => do
    let value ← read item
    if more.isEmpty then return value else .error (.tooManyParts (more.length + 1) kind)

structure BinaryParts where
  op : Option Operator := none
  left : Option Expr := none
  right : Option Expr := none

def BinaryParts.finish (parts : BinaryParts) : Except TreeError Expr :=
  match parts.op, parts.left, parts.right with
  | none, _, _ => .error (.missingField "op")
  | _, none, _ => .error (.missingField "left")
  | _, _, none => .error (.missingField "right")
  | some op, some left, some right => .ok (.binary op left right)

mutual

def readExpr : Json → Except TreeError Expr
  | .object fields => do
    match ← readKind false .expression fields with
    | .number => return .number (← leafField "value" readNumber fields)
    | .string => return .string (← leafField "value" readString fields)
    | .boolean => return .boolean (← leafField "value" readBoolean fields)
    | .identifier => return .identifier (← leafField "name" readString fields)
    | _ => readBinaryFields {} fields
  | .array (tag :: items) => do
    match ← readTag false .expression tag with
    | .number => return .number (← leafItem .number readNumber items)
    | .string => return .string (← leafItem .string readString items)
    | .boolean => return .boolean (← leafItem .boolean readBoolean items)
    | .identifier => return .identifier (← leafItem .identifier readString items)
    | _ => readBinaryItems items
  | .array [] => .error (.missingField Discriminant.standard)
  | other => .error (.wrongShape other (.node .expression))

/-- Reads the parts of a binary expression in the form of an object. -/
def readBinaryFields (parts : BinaryParts) : List (String × Json) → Except TreeError Expr
  | [] => parts.finish
  | (key, value) :: rest => do
    if key = "op" then readBinaryFields { parts with op := some (← readOperator value) } rest
    else if key = "left" then readBinaryFields { parts with left := some (← readExpr value) } rest
    else if key = "right" then readBinaryFields { parts with right := some (← readExpr value) } rest
    else readBinaryFields parts rest

/-- Reads the parts of a binary expression in the form of a list. -/
def readBinaryItems : List Json → Except TreeError Expr
  | [] => .error (.tooFewParts 0 .binary)
  | [op] => do
    let _ ← readOperator op
    .error (.tooFewParts 1 .binary)
  | [op, left] => do
    let _ ← readOperator op
    let _ ← readExpr left
    .error (.tooFewParts 2 .binary)
  | op :: left :: right :: more => do
    let op ← readOperator op
    let left ← readExpr left
    let right ← readExpr right
    if more.isEmpty then return .binary op left right
    else .error (.tooManyParts (more.length + 3) .binary)

end

structure ConditionalParts where
  condition : Option Expr := none
  branch : Option Stmt := none
  otherwise : Option Stmt := none

def ConditionalParts.finish (parts : ConditionalParts) : Except TreeError Stmt :=
  match parts.condition, parts.branch, parts.otherwise with
  | none, _, _ => .error (.missingField "cond")
  | _, none, _ => .error (.missingField "then")
  | some condition, some branch, none => .ok (.ifThen condition branch)
  | some condition, some branch, some otherwise => .ok (.ifThenElse condition branch otherwise)

mutual

def readStmt (isRoot : Bool) : Json → Except TreeError Stmt
  | .object fields => do
    match ← readKind isRoot .statement fields with
    | .conditional => readConditionalFields {} fields
    | .expressionStatement => return .expression (← leafField "expr" readExpr fields)
    | _ => readBlockFields fields
  | .array (tag :: items) => do
    match ← readTag isRoot .statement tag with
    | .conditional => readConditionalItems items
    | .expressionStatement => return .expression (← leafItem .expressionStatement readExpr items)
    | _ => readBlockItems items
  | .array [] => .error (.missingField Discriminant.standard)
  | other => .error (.wrongShape other (.node .statement))

/-- Reads the parts of a conditional in the form of an object. -/
def readConditionalFields (parts : ConditionalParts) :
    List (String × Json) → Except TreeError Stmt
  | [] => parts.finish
  | (key, value) :: rest => do
    if key = "cond" then
      readConditionalFields { parts with condition := some (← readExpr value) } rest
    else if key = "then" then
      readConditionalFields { parts with branch := some (← readStmt false value) } rest
    else if key = "otherwise" then
      match value with
      | .null => readConditionalFields { parts with otherwise := none } rest
      | _ =>
        readConditionalFields { parts with otherwise := some (← readStmt false value) } rest
    else readConditionalFields parts rest

/-- Reads the parts of a conditional in the form of a list; the last one may be left out. -/
def readConditionalItems : List Json → Except TreeError Stmt
  | [] => .error (.tooFewParts 0 .conditional)
  | [condition] => do
    let _ ← readExpr condition
    .error (.tooFewParts 1 .conditional)
  | [condition, branch] => do
    let condition ← readExpr condition
    let branch ← readStmt false branch
    return .ifThen condition branch
  | condition :: branch :: otherwise :: more => do
    let condition ← readExpr condition
    let branch ← readStmt false branch
    let whole ← match otherwise with
      | .null => pure (.ifThen condition branch)
      | _ => pure (.ifThenElse condition branch (← readStmt false otherwise))
    if more.isEmpty then return whole else .error (.tooManyParts (more.length + 3) .conditional)

/-- Reads the part of a block in the form of an object. -/
def readBlockFields : List (String × Json) → Except TreeError Stmt
  | [] => .error (.missingField "stmts")
  | (key, value) :: rest =>
    if key = "stmts" then
      match value with
      | .array items => do return .block (← readAll items)
      | other => .error (.wrongShape other .list)
    else readBlockFields rest

/-- Reads the part of a block in the form of a list. -/
def readBlockItems : List Json → Except TreeError Stmt
  | [] => .error (.tooFewParts 0 .block)
  | .array items :: more => do
    let body ← readAll items
    if more.isEmpty then return .block body
    else .error (.tooManyParts (more.length + 1) .block)
  | other :: _ => .error (.wrongShape other .list)

def readAll : List Json → Except TreeError (List Stmt)
  | [] => return []
  | item :: rest => do
    let s ← readStmt false item
    return s :: (← readAll rest)

end

end Scriptlet.Tree

namespace Scriptlet.Stmt

/-- The tree that a JSON value holds, with the tags in a field that can hold them. Wherever that
field occurs it takes the place of the standard one; where it does not, the standard one counts. -/
def ofJson (discriminant : String) (value : Json) : Except TreeError Stmt :=
  if !Discriminant.isUsable discriminant then .error (.unusableDiscriminant discriminant)
  else if discriminant = Discriminant.standard then Tree.readStmt true value
  else Tree.readStmt true (value.renameField discriminant Discriminant.standard)

end Scriptlet.Stmt
