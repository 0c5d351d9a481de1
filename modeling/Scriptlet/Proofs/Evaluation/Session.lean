import Scriptlet.Program
import Scriptlet.Proofs.Evaluation.Refinement

/-! Sessions: an interpreter answers one call after the other. Whatever a call does, and however it
fails, the global scope is the only one afterwards. So each call does what it does on the one store
that the global scope is. -/
namespace Scriptlet

namespace Interpreter

/-- A call that can change an interpreter. -/
inductive Call where
  | define (name : String) (value : Value)
  | run (source : String)
  | interpret (root : Stmt)
  | execute (s : Stmt)
  | evaluate (e : Expr)

/-- The interpreter that a call leaves, also when it fails. -/
def serve (state : Interpreter) : Call → Interpreter
  | .define name value => state.define name value
  | .run source => (state.run source).2
  | .interpret root => (state.interpret root).2
  | .execute s => (state.execute s).2
  | .evaluate e => (state.evaluate e).2

/-- The interpreter that a list of calls leaves. -/
def session (limits : Limits) (calls : List Call) : Interpreter := calls.foldl serve (new limits)

/-- Between calls nothing is being executed, and the global scope is the only one. -/
structure Idle (limits : Limits) (state : Interpreter) : Prop where
  depth : state.depth = 0
  limits : state.limits = limits
  outer : state.scopes.outer = []

/-- The global scope, between calls. -/
def globals (state : Interpreter) : Scope := state.scopes.innermost

namespace Idle

variable {limits : Limits} {state : Interpreter}

theorem follow {after : Interpreter} (idle : Idle limits state) (follows : state.Follows after) :
    Idle limits after := by
  obtain ⟨depth, same, outer⟩ := follows
  refine ⟨depth.trans idle.depth, same.trans idle.limits, ?_⟩
  rw [idle.outer, List.map_nil, List.map_eq_nil_iff] at outer
  exact outer

theorem nesting (idle : Idle limits state) : state.nesting = ⟨0, limits.evaluation⟩ := by
  rw [Interpreter.nesting, idle.depth, idle.limits]

theorem get?_eq (idle : Idle limits state) (name : String) :
    state.get? name = state.globals.get? name := by
  rw [Interpreter.get?, ScopeChain.get?_eq, idle.outer]
  exact Option.or_none

theorem represents (idle : Idle limits state) : Represents state.scopes state.globals := by
  refine ⟨?_, idle.get?_eq⟩
  rw [ScopeChain.scopes, idle.outer]
  exact List.pairwise_singleton _ _

/-- Between calls, a computation does what its counterpart does on the global scope. -/
theorem agrees (idle : Idle limits state) {action : Execution α} {flat : FlatExecution α}
    (refines : Refines action flat) :
    Agrees state (action state) (flat.start limits.evaluation state.globals) := by
  have outcome := refines state state.globals idle.represents
  rw [idle.nesting] at outcome
  exact outcome

theorem interpret (idle : Idle limits state) (root : Stmt) :
    Idle limits (state.interpret root).2 :=
  idle.follow (idle.agrees (.executeAll .unit root.statements)).follows

/-- Each call leaves the interpreter ready for the next one. -/
theorem serve (idle : Idle limits state) (call : Call) : Idle limits (state.serve call) := by
  cases call with
  | define name value => exact ⟨idle.depth, idle.limits, idle.outer⟩
  | run source =>
    rw [Interpreter.serve, Interpreter.run]
    split
    · exact idle
    · exact idle.interpret _
  | interpret root => exact idle.interpret root
  | execute s => exact idle.follow (idle.agrees (.execute s)).follows
  | evaluate e => exact idle.follow (idle.agrees (.evaluate e)).follows

theorem calls (idle : Idle limits state) (calls : List Call) :
    Idle limits (calls.foldl Interpreter.serve state) := by
  induction calls generalizing state with
  | nil => exact idle
  | cons call rest ih => exact ih (idle.serve call)

theorem new (limits : Limits) : Idle limits (Interpreter.new limits) := ⟨rfl, rfl, rfl⟩

end Idle

theorem session_idle (limits : Limits) (calls : List Call) : Idle limits (session limits calls) :=
  (Idle.new limits).calls calls

end Interpreter

/-- Two calls have the same result, and every name is bound to the same value afterwards. -/
def SameOutcome (outcome : Except ExecutionError α × Interpreter)
    (flat : Except ExecutionError α × Scope) : Prop :=
  outcome.1 = flat.1 ∧ ∀ name, outcome.2.get? name = flat.2.get? name

theorem Agrees.same {state : Interpreter} {outcome : Except ExecutionError α × Interpreter}
    (agrees : Agrees state outcome flat) : SameOutcome outcome flat :=
  ⟨agrees.result, agrees.represents.agrees⟩

/-- At every point of a session, every call does on the chain of scopes what it does on one store
that starts with the same global bindings. -/
theorem session_refines_store (limits : Limits) (calls : List Interpreter.Call) :
    let state := Interpreter.session limits calls
    let store := state.globals
    (∀ name, state.get? name = store.get? name) ∧
    (∀ root, SameOutcome (state.interpret root)
      ((FlatExecution.interpret root).start limits.evaluation store)) ∧
    (∀ s, SameOutcome (state.execute s)
      ((FlatExecution.execute s).start limits.evaluation store)) ∧
    ∀ e, SameOutcome (state.evaluate e)
      ((FlatExecution.evaluate e).start limits.evaluation store) := by
  intro state store
  have idle := Interpreter.session_idle limits calls
  refine ⟨idle.get?_eq, ?_, ?_, ?_⟩
  · intro root
    exact (idle.agrees (.executeAll .unit root.statements)).same
  · intro s
    exact (idle.agrees (.execute s)).same
  · intro e
    exact (idle.agrees (.evaluate e)).same

end Scriptlet
