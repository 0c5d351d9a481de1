import Scriptlet.Evaluation.Operation
import Scriptlet.Limits
import Scriptlet.Scope

/-! Running programs. The state of an interpreter outlives failures: what a program has assigned
before it fails stays assigned, and every level and every scope that has been entered is left again
on the way out. -/
namespace Scriptlet

/-- The state of an interpreter: the bindings, the number of statements and expressions that are
being executed inside one another, and the limits. -/
structure Interpreter where
  scopes : ScopeChain
  depth : Nat
  limits : Limits

/-- A computation that can fail and works on an interpreter either way. -/
abbrev Execution (α : Type) := ExceptT ExecutionError (StateM Interpreter) α

namespace Execution

/-- Fails in a statement that is not known yet. -/
def fail (cause : ExecutionError.Cause) : Execution α := throw (.bare cause)

/-- The value of an operation that may have failed. -/
def ofExcept : Except ExecutionError.Cause α → Execution α
  | .ok result => pure result
  | .error cause => fail cause

/-- Runs one level deeper, unless the limit is reached. -/
def nested (action : Execution α) : Execution α := fun state =>
  if state.depth < state.limits.evaluation then
    let (result, after) := action { state with depth := state.depth + 1 }
    (result, { after with depth := after.depth - 1 })
  else (.error (.bare (.depthLimit state.limits.evaluation)), state)

/-- Runs in a scope of its own. -/
def enclosed (action : Execution α) : Execution α := fun state =>
  let (result, after) := action { state with scopes := state.scopes.enter }
  (result, { after with scopes := after.scopes.leave })

/-- Runs as a part of a statement, which is named if it fails in no inner one. -/
def during (site : ExecutionError.Site) (action : Execution α) : Execution α := fun state =>
  let (result, after) := action state
  (result.mapError (·.within site), after)

def lookup (name : String) : Execution Value := do
  match (← get).scopes.get? name with
  | some value => pure value
  | none => fail (.unboundIdentifier name)

/-- Changes the nearest binding of a name, or binds it in the innermost scope. -/
def assign (name : String) (value : Value) : Execution Unit :=
  modify fun state =>
    { state with
      scopes := (state.scopes.assign? name value).getD (state.scopes.define name value) }

/-- Requires the value of an operand of a logical operator to be a boolean. -/
def logicalOperand (op : Operator) : Value → Execution Bool
  | .boolean value => pure value
  | value => fail (.nonBooleanOperand op value)

/-- Evaluates an expression, operands from left to right. `||` stops at a true operand, `&&` at a
false one, and an assignment checks its target before it evaluates its right side. -/
def evaluate : Expr → Execution Value
  | .number value => nested (pure (.number value))
  | .string value => nested (pure (.string value))
  | .boolean value => nested (pure (.boolean value))
  | .identifier name => nested (lookup name)
  | .binary .or left right => nested do
    if ← logicalOperand .or (← evaluate left) then pure (.boolean true)
    else return .boolean (← logicalOperand .or (← evaluate right))
  | .binary .and left right => nested do
    if ← logicalOperand .and (← evaluate left) then
      return .boolean (← logicalOperand .and (← evaluate right))
    else pure (.boolean false)
  | .binary .assign (.identifier name) right => nested do
    let value ← evaluate right
    assign name value
    pure value
  | .binary .assign target _ => nested (fail (.invalidAssignmentTarget target))
  | .binary op left right => nested do
    let first ← evaluate left
    let second ← evaluate right
    ofExcept (op.apply first second)

mutual

/-- Executes a statement. Its value is that of the expression, of the last statement of the block
or of the branch taken; it is `unit` if there is none. -/
def execute : Stmt → Execution Value
  | .expression value => nested (during (.expression value) (evaluate value))
  | .block body => nested (enclosed (executeAll .unit body))
  | .ifThen condition branch => nested <| during (.conditional condition) do
    match ← evaluate condition with
    | .boolean true => execute branch
    | .boolean false => pure .unit
    | value => fail (.nonBooleanCondition value)
  | .ifThenElse condition branch otherwise => nested <| during (.conditional condition) do
    match ← evaluate condition with
    | .boolean true => execute branch
    | .boolean false => execute otherwise
    | value => fail (.nonBooleanCondition value)

/-- Executes statements in turn up to the first failure. Their value is that of the last one, or
the given one. -/
def executeAll (last : Value) : List Stmt → Execution Value
  | [] => pure last
  | s :: rest => do executeAll (← execute s) rest

end

end Execution

namespace Interpreter

def new (limits : Limits) : Interpreter := ⟨.global, 0, limits⟩

/-- Binds a name in the current scope, which is the global one between runs. -/
def define (state : Interpreter) (name : String) (value : Value) : Interpreter :=
  { state with scopes := state.scopes.define name value }

def get? (state : Interpreter) (name : String) : Option Value := state.scopes.get? name

/-- Runs a program. The statements of a root block share the current scope, so that what they
bind survives the run. -/
def interpret (state : Interpreter) (root : Stmt) : Except ExecutionError Value × Interpreter :=
  Execution.executeAll .unit root.statements state

/-- Executes one statement; a root block has a scope of its own. -/
def execute (state : Interpreter) (s : Stmt) : Except ExecutionError Value × Interpreter :=
  Execution.execute s state

def evaluate (state : Interpreter) (e : Expr) : Except ExecutionError Value × Interpreter :=
  Execution.evaluate e state

end Interpreter
end Scriptlet
