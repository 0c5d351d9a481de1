import Scriptlet.Grammar.Expression

/-! Statements from tokens. Every statement takes one level of nesting while it is read. An `else`
is looked for right after the branch before it, so it belongs to the nearest `if` that can still
take one. -/
namespace Scriptlet.Grammar

def expressionStatement (limit room : Nat) (tokens : List Token) : Result Stmt tokens.length :=
  Rule.expressionStatement.during do
    let value ← expression limit room tokens
    let semicolon ← expect .semicolon value.rest
    return ⟨.expression value.node, semicolon.rest, Nat.lt_trans semicolon.within value.within⟩

mutual

def statement (limit room : Nat) (tokens : List Token) : Result Stmt tokens.length :=
  Rule.statement.during
    (match room with
    | 0 => stop (.nestingLimit limit) tokens
    | room + 1 =>
      match tokens with
      | [] => expressionStatement limit room []
      | token :: after =>
        match token.kind with
        | .leftBrace => do return (← block limit room after).widen (Nat.le_succ _)
        | .ifKeyword => do return (← ifStatement limit room after).widen (Nat.le_succ _)
        | _ => expressionStatement limit room (token :: after))
  termination_by (room, tokens.length, 0)

/-- Reads a conditional after its keyword. -/
def ifStatement (limit room : Nat) (tokens : List Token) : Result Stmt tokens.length :=
  Rule.ifStatement.during do
    let opening ← expect .leftParen tokens
    let condition ← expression limit room opening.rest
    let closing ← expect .rightParen condition.rest
    have ahead : closing.rest.length < tokens.length :=
      Nat.lt_trans closing.within (Nat.lt_trans condition.within opening.within)
    let branch ← statement limit room closing.rest
    match following : branch.rest with
    | ⟨.elseKeyword, _, _⟩ :: after => do
      have beyond : after.length < tokens.length :=
        Nat.lt_trans (Reading.tail_within following) ahead
      let otherwise ← statement limit room after
      return ⟨.ifThenElse condition.node branch.node otherwise.node, otherwise.rest,
        Nat.lt_trans otherwise.within beyond⟩
    | _ => return ⟨.ifThen condition.node branch.node, branch.rest,
        Nat.lt_trans branch.within ahead⟩
  termination_by (room, tokens.length, 1)

/-- Reads a block after its opening brace. -/
def block (limit room : Nat) (tokens : List Token) : Result Stmt tokens.length :=
  Rule.block.during do
    let body ← statements limit room .rightBrace [] tokens (Nat.lt_succ_self _)
    let closing ← expect .rightBrace body.rest
    return ⟨.block body.node, closing.rest,
      Nat.lt_of_lt_of_le closing.within (Nat.le_of_lt_succ body.within)⟩
  termination_by (room, tokens.length, 2)

/-- Reads statements up to a closing token or the end; the list holds those before, last one
first. -/
def statements (limit room : Nat) (closing : Token.Kind) (found : List Stmt)
    (tokens : List Token) (within : tokens.length < bound) : Result (List Stmt) bound :=
  match tokens with
  | [] => .ok ⟨found.reverse, [], within⟩
  | token :: after =>
    if token.kind = closing ∨ token.kind = .endOfInput then
      .ok ⟨found.reverse, token :: after, within⟩
    else do
      let next ← statement limit room (token :: after)
      have shorter : next.rest.length < after.length + 1 := next.within
      statements limit room closing (next.node :: found) next.rest
        (Nat.lt_trans shorter within)
  termination_by (room, tokens.length, 1)

end

/-- Reads a program: statements up to the end of the input. -/
def program (limit : Nat) (tokens : List Token) : Except SyntaxError Stmt :=
  Rule.program.during do
    let body ← statements limit limit .endOfInput [] tokens (Nat.lt_succ_self _)
    let _ ← expect .endOfInput body.rest
    return .block body.node

def singleExpression (limit : Nat) (tokens : List Token) : Except SyntaxError Expr :=
  Rule.singleExpression.during do
    let value ← expression limit limit tokens
    let _ ← expect .endOfInput value.rest
    return value.node

end Scriptlet.Grammar
