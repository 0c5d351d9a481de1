import Scriptlet.Grammar.Result
import Scriptlet.Tree.Basic

/-! Expressions from tokens, by descent through the binding strengths. `room` counts the levels of
nesting that are still free. Three things take one: a parenthesis until it is closed, the right
side of an assignment, and every operator of a chain until the whole chain has been read, since
each of them puts what was read before one level deeper into the tree. `limit` is the room there
was at the start, for the error that there is none left. -/
namespace Scriptlet.Grammar

mutual

def expression (limit room : Nat) (tokens : List Token) : Result Expr tokens.length :=
  Rule.expression.during (level limit room .assignment tokens)
  termination_by (room, 18)

/-- Reads an expression that binds at least as tightly as `p`: an operand of the next strength, and
then what the operators of `p` join to it. -/
def level (limit room : Nat) (p : Precedence) (tokens : List Token) : Result Expr tokens.length :=
  (Rule.level p).during
    (if p = .primary then primary limit room tokens
    else do
      let first ← level limit room p.tighter tokens
      let whole ← if p = .assignment then assigned limit room first.node first.rest
        else folds limit room p first.node first.rest
      return whole.widen first.within)
  termination_by (room, 2 * (8 - p.level))
  decreasing_by
    · cases p <;> first | contradiction | (apply Prod.Lex.right; decide)
    · cases p <;> first | contradiction | (apply Prod.Lex.right; decide)
    · cases p <;> first | contradiction | (apply Prod.Lex.right; decide)
    · cases p <;> first | contradiction | (apply Prod.Lex.right; decide)

/-- Reads on after a possible assignment target. Assignments group to the right, and only a name
can be assigned to. -/
def assigned (limit room : Nat) (target : Expr) (tokens : List Token) :
    Result Expr (tokens.length + 1) :=
  match tokens with
  | ⟨.operator .assign, lexeme, span⟩ :: after =>
    match target, room with
    | .identifier _, 0 => stop (.nestingLimit limit) (⟨.operator .assign, lexeme, span⟩ :: after)
    | .identifier name, room + 1 => do
      let value ← level limit room .assignment after
      return ⟨.binary .assign (.identifier name) value.node, value.rest,
        Nat.lt_succ_of_lt (Nat.lt_succ_of_lt value.within)⟩
    | _, _ => stop .invalidAssignmentTarget (⟨.operator .assign, lexeme, span⟩ :: after)
  | tokens => return .leaving tokens target
  termination_by (room, 0)

/-- Reads on after the left part of a chain of operators of strength `p`, which group to the
left. -/
def folds (limit room : Nat) (p : Precedence) (left : Expr) (tokens : List Token) :
    Result Expr (tokens.length + 1) :=
  match tokens with
  | ⟨.operator op, lexeme, span⟩ :: after =>
    if op.precedence = p then
      match room with
      | 0 => stop (.nestingLimit limit) (⟨.operator op, lexeme, span⟩ :: after)
      | room + 1 => do
        let right ← level limit room p.tighter after
        let whole ← folds limit room p (.binary op left right.node) right.rest
        return whole.widen (Nat.le_succ_of_le (Nat.le_succ_of_le right.within))
    else return .leaving (⟨.operator op, lexeme, span⟩ :: after) left
  | tokens => return .leaving tokens left
  termination_by (room, 0)

def primary (limit room : Nat) (tokens : List Token) : Result Expr tokens.length :=
  match tokens with
  | [] => stop .expectedExpression []
  | token :: after =>
    match token.kind with
    | .number value => return .leaving after (.number value)
    | .string value => return .leaving after (.string value)
    | .boolean value => return .leaving after (.boolean value)
    | .identifier name => return .leaving after (.identifier name)
    | .leftParen =>
      match room with
      | 0 => stop (.nestingLimit limit) (token :: after)
      | room + 1 => do
        let inner ← expression limit room after
        let close ← expect .rightParen inner.rest
        return ⟨inner.node, close.rest,
          Nat.lt_succ_of_lt (Nat.lt_trans close.within inner.within)⟩
    | _ => stop .expectedExpression (token :: after)
  termination_by (room, 1)

end

end Scriptlet.Grammar
