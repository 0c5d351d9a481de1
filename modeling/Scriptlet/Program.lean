import Scriptlet.Evaluation.Interpreter
import Scriptlet.Grammar.Statement
import Scriptlet.Token.Scan

/-! Programs from source text: scanning, parsing, and running. -/
namespace Scriptlet

inductive ProgramError where
  | scanning (e : ScanError)
  | parsing (e : SyntaxError)
  | execution (e : ExecutionError)
  deriving DecidableEq

namespace ProgramError

def message : ProgramError → String
  | scanning e => e.message
  | parsing e => e.message
  | execution e => e.message

/-- The kind of error; a text that is no program has a syntax error. -/
def category : ProgramError → String
  | scanning _ | parsing _ => "SyntaxError"
  | execution e => e.cause.category

end ProgramError

def parseSource (limit : Nat) (source : String) : Except ProgramError Stmt := do
  let tokens ← (Token.scan source).mapError .scanning
  (Grammar.program limit tokens).mapError .parsing

def parseExpression (limit : Nat) (source : String) : Except ProgramError Expr := do
  let tokens ← (Token.scan source).mapError .scanning
  (Grammar.singleExpression limit tokens).mapError .parsing

def Interpreter.run (state : Interpreter) (source : String) :
    Except ProgramError Value × Interpreter :=
  match parseSource state.limits.parsing source with
  | .error e => (.error e, state)
  | .ok root =>
    let (result, after) := state.interpret root
    (result.mapError .execution, after)

end Scriptlet
