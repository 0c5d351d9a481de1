import Scriptlet.Token.Basic

/-! The rules of the grammar by name, and why a list of tokens does not follow them. A syntax error
carries the rules that were being read when it was found, outermost first. -/
namespace Scriptlet

/-- A rule of the grammar. Every binding strength has a rule of its own. -/
inductive Rule where
  | program
  | singleExpression
  | statement
  | ifStatement
  | block
  | expressionStatement
  | expression
  | level (precedence : Precedence)
  deriving DecidableEq, Repr

def Rule.name : Rule → String
  | program => "program"
  | singleExpression => "single_expression"
  | statement => "statement"
  | ifStatement => "if_statement"
  | block => "block"
  | expressionStatement => "expression_statement"
  | expression => "expression"
  | level .assignment => "assignment"
  | level .logicalOr => "logical_or"
  | level .logicalAnd => "logical_and"
  | level .equality => "equality"
  | level .relational => "comparison"
  | level .additive => "term"
  | level .multiplicative => "factor"
  | level .primary => "primary"

inductive SyntaxError.Cause where
  /-- Only this kind of token can stand here. -/
  | expected (kind : Token.Kind)
  | expectedExpression
  /-- The left side of an assignment is not a name. -/
  | invalidAssignmentTarget
  /-- One more level would go beyond the nesting limit. -/
  | nestingLimit (limit : Nat)
  deriving DecidableEq

/-- A syntax error. The token is missing only where the tokens ran out without an end mark. -/
structure SyntaxError where
  cause : SyntaxError.Cause
  context : List Rule
  found : Option Token
  deriving DecidableEq

namespace SyntaxError

def Cause.message : Cause → String
  | expected kind => "Expected \"" ++ kind.render ++ "\""
  | expectedExpression => "Expected an expression"
  | invalidAssignmentTarget => "Only an identifier can be assigned to"
  | nestingLimit limit => "Nesting exceeds the limit of " ++ toString limit ++ " levels"

def span? (e : SyntaxError) : Option Span := e.found.map (·.span)

def message (e : SyntaxError) : String :=
  let place := match e.found with
    | some token =>
      " at " ++ token.span.render ++ " but found \"" ++ token.kind.render ++ "\""
    | none => ""
  "Syntax error: " ++ e.cause.message ++ place
    ++ " (while parsing " ++ String.intercalate " > " (e.context.map Rule.name) ++ ")"

/-- The same error, seen from the rule around it. -/
def within (rule : Rule) (e : SyntaxError) : SyntaxError :=
  { e with context := rule :: e.context }

end SyntaxError

/-- Reads under a rule: an error on the way is placed within it. -/
def Rule.during (rule : Rule) : Except SyntaxError α → Except SyntaxError α
  | .ok result => .ok result
  | .error e => .error (e.within rule)

@[simp] theorem Rule.during_ok (rule : Rule) (result : α) : rule.during (.ok result) = .ok result :=
  rfl

@[simp] theorem Rule.during_error (rule : Rule) (e : SyntaxError) :
    rule.during (.error e : Except SyntaxError α) = .error (e.within rule) := rfl

end Scriptlet
