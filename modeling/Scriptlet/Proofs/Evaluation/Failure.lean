import Scriptlet.Proofs.Evaluation.Invariant

/-! Why programs fail. Which causes a failure can have depends on the parts of a program and on the
levels that are free; both are known before the program runs. -/
namespace Scriptlet

/-- Naming the statement leaves the cause as it is. -/
theorem ExecutionError.cause_within (site : Site) (e : ExecutionError) :
    (e.within site).cause = e.cause := by
  unfold within
  split <;> rfl

/-- A computation that fails only with expected causes, where enough levels are free. -/
structure FailsWith (ready : Nesting → Prop) (expected : ExecutionError.Cause → Prop)
    (action : Execution α) : Prop where
  follows : Keeps Interpreter.Follows action
  causes : ∀ state : Interpreter, ready state.nesting →
    ∀ e, (action state).1 = .error e → expected e.cause

/-- Conditions on the parts of a program and on the levels that are free which confine its failures
to the expected causes. -/
structure Confines {ι : Type} (admits : ι → Part → Prop) (inside : ι → ι)
    (ready : ι → Nesting → Prop) (expected : ExecutionError.Cause → Prop) : Prop where
  inner : ∀ {i part}, admits i part → ∀ p ∈ part.inner, admits (inside i) p
  level : ∀ {i part depth limit}, admits i part → ready i ⟨depth, limit⟩ → depth < limit →
    ready (inside i) ⟨depth + 1, limit⟩
  full : ∀ {i part depth limit}, admits i part → ready i ⟨depth, limit⟩ → ¬ depth < limit →
    expected (.depthLimit limit)
  values : ∀ {cause}, cause.OfValues → expected cause
  unbound : ∀ name, expected (.unboundIdentifier name)
  target : ∀ {i target right}, admits i (.expression (.binary .assign target right)) →
    (∀ name, target ≠ .identifier name) → expected (.invalidAssignmentTarget target)

namespace FailsWith

variable {ready : Nesting → Prop} {expected : ExecutionError.Cause → Prop}

theorem pure (a : α) : FailsWith ready expected (Pure.pure a) :=
  ⟨Interpreter.follows_composes.pure a, fun _ _ _ failed => by cases failed⟩

theorem fail {cause : ExecutionError.Cause} (known : expected cause) :
    FailsWith (α := α) ready expected (Execution.fail cause) := by
  refine ⟨Interpreter.follows_composes.fail cause, fun _ _ e failed => ?_⟩
  cases failed
  exact known

theorem bind {action : Execution α} {next : α → Execution β}
    (first : FailsWith ready expected action) (onward : ∀ a, FailsWith ready expected (next a)) :
    FailsWith ready expected (action >>= next) := by
  refine ⟨Interpreter.follows_composes.bind first.follows fun a => (onward a).follows, ?_⟩
  intro state free e failed
  have follows := first.follows state
  have causes := first.causes state free
  rw [Execution.bind_apply] at failed
  generalize action state = outcome at follows causes failed
  obtain ⟨result, after⟩ := outcome
  cases result with
  | error e' =>
    cases failed
    exact causes e rfl
  | ok a => exact (onward a).causes after (follows.nesting ▸ free) e failed

theorem enclosed {action : Execution α} (inner : FailsWith ready expected action) :
    FailsWith ready expected (Execution.enclosed action) :=
  ⟨Interpreter.follows_composes.scope inner.follows,
    fun state free => inner.causes { state with scopes := state.scopes.enter } free⟩

theorem during {action : Execution α} (site : ExecutionError.Site)
    (inner : FailsWith ready expected action) :
    FailsWith ready expected (Execution.during site action) := by
  refine ⟨Composes.during inner.follows site, fun state free e failed => ?_⟩
  have causes := inner.causes state free
  unfold Execution.during at failed
  generalize action state = outcome at causes failed
  obtain ⟨result, after⟩ := outcome
  cases result with
  | ok a => cases failed
  | error e' =>
    cases failed
    exact (e'.cause_within site).symm ▸ causes e' rfl

theorem lookup (unbound : ∀ name, expected (.unboundIdentifier name)) (name : String) :
    FailsWith ready expected (Execution.lookup name) := by
  refine ⟨Interpreter.follows_composes.lookup name, fun state _ e failed => ?_⟩
  rw [Execution.lookup_apply] at failed
  cases bound : state.get? name with
  | some value => rw [bound] at failed; cases failed
  | none =>
    rw [bound] at failed
    cases failed
    exact unbound name

theorem assign (name : String) (value : Value) :
    FailsWith ready expected (Execution.assign name value) :=
  ⟨Interpreter.follows_composes.set name value, fun _ _ _ failed => by cases failed⟩

end FailsWith

namespace Confines

variable {ι : Type} {admits : ι → Part → Prop} {inside : ι → ι} {ready : ι → Nesting → Prop}
  {expected : ExecutionError.Cause → Prop} {i : ι}

/-- A level that is free is taken, and one that is not is to blame itself. -/
theorem nested (confines : Confines admits inside ready expected) {part : Part}
    (admitted : admits i part) {action : Execution α}
    (inner : FailsWith (ready (inside i)) expected action) :
    FailsWith (ready i) expected (Execution.nested action) := by
  refine ⟨Interpreter.follows_composes.level inner.follows, fun state free e failed => ?_⟩
  by_cases room : state.depth < state.limits.evaluation
  · rw [Execution.nested_of_room room] at failed
    exact inner.causes { state with depth := state.depth + 1 } (confines.level admitted free room)
      e failed
  · rw [Execution.nested_of_full room] at failed
    cases failed
    exact confines.full admitted free room

theorem relates (confines : Confines admits inside ready expected) :
    Machine.RelatesParts admits inside
      fun i α (action _ : Execution α) => FailsWith (ready i) expected action where
  inner := confines.inner
  pure := .pure
  bind := .bind
  fail := fun values => .fail (confines.values values)
  nested := fun admitted => confines.nested admitted
  enclosed := .enclosed
  during := .during
  lookup := fun _ => .lookup confines.unbound _
  assign := fun value _ => .assign _ value
  target := fun admitted other => .fail (confines.target admitted other)

theorem evaluate (confines : Confines admits inside ready expected) (e : Expr)
    (admitted : admits i (.expression e)) :
    FailsWith (ready i) expected (Execution.evaluate e) := by
  rw [← Execution.machine_evaluate]
  exact confines.relates.evaluate e admitted

theorem execute (confines : Confines admits inside ready expected) (s : Stmt)
    (admitted : admits i (.statement s)) :
    FailsWith (ready i) expected (Execution.execute s) := by
  rw [← Execution.machine_execute]
  exact confines.relates.execute s admitted

theorem executeAll (confines : Confines admits inside ready expected) (last : Value)
    (body : List Stmt) (admitted : ∀ s ∈ body, admits i (.statement s)) :
    FailsWith (ready i) expected (Execution.executeAll last body) := by
  rw [← Execution.machine_executeAll]
  exact confines.relates.executeAll last body admitted

end Confines
end Scriptlet
