import Scriptlet.Proofs.Evaluation.Refinement

/-! What programs keep. A relation between the states before and after a computation that every
construct keeps, if the parts of the construct do, is kept by every program, however it ends and
whatever the bindings are. -/
namespace Scriptlet

/-- A relation between states that every construct keeps if its parts do. -/
structure Composes (related : Interpreter → Interpreter → Prop) : Prop where
  refl : ∀ state, related state state
  trans : ∀ {before between after},
    related before between → related between after → related before after
  nested : ∀ {state after : Interpreter}, state.depth < state.limits.evaluation →
    related { state with depth := state.depth + 1 } after →
    related state { after with depth := after.depth - 1 }
  enclosed : ∀ {state after : Interpreter},
    related { state with scopes := state.scopes.enter } after →
    related state { after with scopes := after.scopes.leave }
  assign : ∀ (state : Interpreter) (name : String) (value : Value),
    related state { state with scopes := state.scopes.set name value }

/-- A computation that leaves a related state, also when it fails. -/
def Keeps (related : Interpreter → Interpreter → Prop) (action : Execution α) : Prop :=
  ∀ state, related state (action state).2

namespace Composes

variable {related : Interpreter → Interpreter → Prop} {action : Execution α}

theorem pure (composes : Composes related) (a : α) : Keeps related (Pure.pure a) :=
  composes.refl

theorem fail (composes : Composes related) (cause : ExecutionError.Cause) :
    Keeps (α := α) related (Execution.fail cause) :=
  composes.refl

theorem bind {f : α → Execution β} (composes : Composes related) (first : Keeps related action)
    (next : ∀ a, Keeps related (f a)) : Keeps related (action >>= f) := by
  intro state
  have before := first state
  rw [Execution.bind_apply]
  cases outcome : action state with
  | mk result between =>
    rw [outcome] at before
    cases result with
    | error e => exact before
    | ok a => exact composes.trans before (next a between)

theorem level (composes : Composes related) (keeps : Keeps related action) :
    Keeps related (Execution.nested action) := by
  intro state
  by_cases room : state.depth < state.limits.evaluation
  · rw [Execution.nested_of_room room]
    exact composes.nested room (keeps _)
  · rw [Execution.nested_of_full room]
    exact composes.refl state

theorem scope (composes : Composes related) (keeps : Keeps related action) :
    Keeps related (Execution.enclosed action) :=
  fun _ => composes.enclosed (keeps _)

theorem during (keeps : Keeps related action) (site : ExecutionError.Site) :
    Keeps related (Execution.during site action) :=
  keeps

theorem lookup (composes : Composes related) (name : String) :
    Keeps related (Execution.lookup name) := by
  intro state
  rw [Execution.lookup_apply]
  split <;> exact composes.refl state

theorem set (composes : Composes related) (name : String) (value : Value) :
    Keeps related (Execution.assign name value) :=
  fun state => composes.assign state name value

/-- What every operation keeps of the states is kept whatever is run. -/
theorem relates (composes : Composes related) :
    Machine.Relates fun α (action _ : Execution α) => Keeps related action where
  pure := composes.pure
  bind := composes.bind
  fail := composes.fail
  nested := fun _ => composes.level
  enclosed := composes.scope
  during := fun site keeps => during keeps site
  lookup := composes.lookup
  assign := composes.set

theorem evaluate (composes : Composes related) (e : Expr) :
    Keeps related (Execution.evaluate e) := by
  rw [← Execution.machine_evaluate]
  exact composes.relates.evaluate e

theorem execute (composes : Composes related) (s : Stmt) :
    Keeps related (Execution.execute s) := by
  rw [← Execution.machine_execute]
  exact composes.relates.execute s

theorem executeAll (composes : Composes related) (last : Value) (body : List Stmt) :
    Keeps related (Execution.executeAll last body) := by
  rw [← Execution.machine_executeAll]
  exact composes.relates.executeAll last body

end Composes

namespace Interpreter

/-- Depth, limits and the names of the outer scopes are the same after every computation. -/
theorem follows_composes : Composes Follows where
  refl := .refl
  trans := .trans
  nested := fun _ follows =>
    ⟨Nat.sub_eq_of_eq_add follows.depth, follows.limits, follows.outer⟩
  enclosed := fun follows =>
    ⟨follows.depth, follows.limits, ScopeChain.binds_outer_leave follows.outer⟩
  assign := fun state name value => ⟨rfl, rfl, state.scopes.binds_outer_set name value⟩

/-- What every computation comes back to: the depth, the limits and the scope that it started in,
which has all the names that it had, inside scopes with the same names as before. -/
structure Returns (before after : Interpreter) : Prop extends Follows before after where
  inner : ∀ name, before.scopes.innermost.binds name = true →
    after.scopes.innermost.binds name = true

/-- Every computation comes back to the scope that it started in. -/
theorem returns_composes : Composes Returns where
  refl := fun state => ⟨.refl state, fun _ bound => bound⟩
  trans := fun first second => ⟨first.toFollows.trans second.toFollows,
    fun name bound => second.inner name (first.inner name bound)⟩
  nested := fun room returns => ⟨follows_composes.nested room returns.toFollows, returns.inner⟩
  enclosed := fun {state after} returns => by
    refine ⟨follows_composes.enclosed returns.toFollows, fun name bound => ?_⟩
    have same : after.scopes.leave.innermost.binds = state.scopes.innermost.binds :=
      (List.cons_eq_cons.mp (ScopeChain.binds_leave returns.outer)).1
    rwa [same]
  assign := fun state name value => ⟨follows_composes.assign state name value,
    fun _ bound => ScopeChain.binds_innermost_set bound name value⟩

end Interpreter
end Scriptlet
