import Scriptlet.Proofs.Evaluation.FlatStore

/-! The interpreter refines the store without scopes. A chain of scopes stands for a store as long
as no name is bound in two of its scopes; every computation keeps it so, and leaves the scopes
outside the innermost one with the names that they had. -/
namespace Scriptlet

/-- A chain of scopes stands for a store: its scopes have no name in common, and every name is
bound to the same value. -/
structure Represents (chain : ScopeChain) (store : Scope) : Prop where
  apart : ScopeChain.Apart chain.scopes
  agrees : ∀ name, chain.get? name = store.get? name

namespace Represents

theorem set (represents : Represents chain store) (name : String) (value : Value) :
    Represents (chain.set name value) (store.insert name value) := by
  constructor
  · exact represents.apart.set name value
  intro other
  rw [ScopeChain.get?_set, Scope.get?_insert, represents.agrees]

theorem enter (represents : Represents chain store) : Represents chain.enter store := by
  constructor
  · exact represents.apart.enter
  intro name
  rw [ScopeChain.get?_enter, represents.agrees]

/-- Leaving a scope keeps the names that were bound when it was entered. -/
theorem leave (entered : Represents before store) (represents : Represents after flat)
    (same : after.outer.map Scope.binds = before.scopes.map Scope.binds) :
    Represents after.leave (flat.keep store) := by
  obtain ⟨apart, agrees⟩ := represents
  constructor
  · exact entered.apart.congr (ScopeChain.binds_leave same)
  intro name
  rw [ScopeChain.get?_leave apart (ScopeChain.outer_ne_nil same), ScopeChain.isSome_find?, same,
    ← ScopeChain.isSome_find?, agrees, Scope.get?_keep, Scope.binds, ← entered.agrees]
  rfl

end Represents

namespace Interpreter

/-- What every computation leaves as it was. -/
structure Follows (before after : Interpreter) : Prop where
  depth : after.depth = before.depth
  limits : after.limits = before.limits
  outer : after.scopes.outer.map Scope.binds = before.scopes.outer.map Scope.binds

theorem Follows.refl (state : Interpreter) : Follows state state := ⟨rfl, rfl, rfl⟩

theorem Follows.trans (first : Follows before between) (second : Follows between after) :
    Follows before after :=
  ⟨second.depth.trans first.depth, second.limits.trans first.limits,
    second.outer.trans first.outer⟩

/-- How deep an interpreter is nested, and may be. -/
def nesting (state : Interpreter) : Nesting := ⟨state.depth, state.limits.evaluation⟩

theorem Follows.nesting (follows : Follows before after) : after.nesting = before.nesting := by
  rw [Interpreter.nesting, follows.depth, follows.limits]
  rfl

end Interpreter

/-- A computation of the interpreter and one on a store have the same outcome from a state on. -/
structure Agrees (before : Interpreter) (outcome : Except ExecutionError α × Interpreter)
    (flat : Except ExecutionError α × Scope) : Prop where
  result : outcome.1 = flat.1
  follows : before.Follows outcome.2
  represents : Represents outcome.2.scopes flat.2

/-- A computation of the interpreter does what another one does on every store that its scopes
can stand for. -/
def Refines (action : Execution α) (flat : FlatExecution α) : Prop :=
  ∀ (state : Interpreter) (store : Scope), Represents state.scopes store →
    Agrees state (action state) (flat state.nesting store)

namespace Refines

theorem pure (a : α) : Refines (Pure.pure a) (Pure.pure a) :=
  fun state _ represents => ⟨rfl, .refl state, represents⟩

theorem fail (cause : ExecutionError.Cause) :
    Refines (α := α) (Execution.fail cause) (FlatExecution.fail cause) :=
  fun state _ represents => ⟨rfl, .refl state, represents⟩

theorem bind (refines : Refines action flat) (next : ∀ a, Refines (f a) (g a)) :
    Refines (action >>= f) (flat >>= g) := by
  intro state store represents
  have first := refines state store represents
  rw [Execution.bind_apply, FlatExecution.bind_apply]
  generalize action state = outcome at first ⊢
  generalize flat state.nesting store = reference at first ⊢
  obtain ⟨result, after⟩ := outcome
  obtain ⟨_, store'⟩ := reference
  obtain ⟨rfl, follows, represents⟩ := first
  cases result with
  | error e => exact ⟨rfl, follows, represents⟩
  | ok a =>
    have second := next a after store' represents
    rw [follows.nesting] at second
    exact ⟨second.result, follows.trans second.follows, second.represents⟩

/-- Both computations count one level, and both fail where there is none left. -/
theorem nested (refines : Refines action flat) :
    Refines (Execution.nested action) (FlatExecution.nested flat) := by
  intro state store represents
  by_cases room : state.depth < state.limits.evaluation
  · obtain ⟨result, follows, after⟩ :=
      refines { state with depth := state.depth + 1 } store represents
    rw [Execution.nested_of_room room, FlatExecution.nested_of_room room]
    exact ⟨result, ⟨Nat.sub_eq_of_eq_add follows.depth, follows.limits, follows.outer⟩, after⟩
  · rw [Execution.nested_of_full room, FlatExecution.nested_of_full room]
    exact ⟨rfl, .refl state, represents⟩

theorem enclosed (refines : Refines action flat) :
    Refines (Execution.enclosed action) (FlatExecution.enclosed flat) := by
  intro state store represents
  obtain ⟨result, follows, after⟩ :=
    refines { state with scopes := state.scopes.enter } store represents.enter
  refine ⟨result, ⟨follows.depth, follows.limits, ?_⟩, represents.leave after follows.outer⟩
  exact ScopeChain.binds_outer_leave follows.outer

theorem during (site : ExecutionError.Site) (refines : Refines action flat) :
    Refines (Execution.during site action) (FlatExecution.during site flat) := by
  intro state store represents
  obtain ⟨result, follows, after⟩ := refines state store represents
  exact ⟨congrArg (·.mapError (·.within site)) result, follows, after⟩

theorem lookup (name : String) : Refines (Execution.lookup name) (FlatExecution.lookup name) := by
  intro state store represents
  rw [Execution.lookup_apply, FlatExecution.lookup_apply, Interpreter.get?, represents.agrees]
  cases store.get? name with
  | some value => exact ⟨rfl, .refl state, represents⟩
  | none => exact ⟨rfl, .refl state, represents⟩

theorem assign (name : String) (value : Value) :
    Refines (Execution.assign name value) (FlatExecution.assign name value) :=
  fun state _ represents => ⟨rfl, ⟨rfl, rfl, state.scopes.binds_outer_set name value⟩,
    represents.set name value⟩

/-- Every operation of the interpreter refines the one on a store. -/
theorem relates :
    Machine.Relates fun α => (Refines : Execution α → FlatExecution α → Prop) where
  pure := pure
  bind := bind
  fail := fail
  nested := fun _ => nested
  enclosed := enclosed
  during := during
  lookup := lookup
  assign := assign

theorem evaluate (e : Expr) : Refines (Execution.evaluate e) (FlatExecution.evaluate e) := by
  rw [← Execution.machine_evaluate]
  exact relates.evaluate e

theorem execute (s : Stmt) : Refines (Execution.execute s) (FlatExecution.execute s) := by
  rw [← Execution.machine_execute]
  exact relates.execute s

theorem executeAll (last : Value) (body : List Stmt) :
    Refines (Execution.executeAll last body) (FlatExecution.executeAll last body) := by
  rw [← Execution.machine_executeAll]
  exact relates.executeAll last body

end Refines
end Scriptlet
