import Scriptlet.Evaluation.Interpreter

/-! What the pieces of a computation do to an interpreter, as equations. -/
namespace Scriptlet

/-- The operators that compute with the values of both operands. The others decide which operands
are evaluated. -/
def Operator.Computes (op : Operator) : Prop := op ≠ .or ∧ op ≠ .and ∧ op ≠ .assign

/-- Whether values are to blame, and neither a name, nor a target, nor a limit. -/
def ExecutionError.Cause.OfValues : Cause → Prop
  | invalidOperands _ _ _ | nonBooleanCondition _ | nonBooleanOperand _ _ | divisionByZero _ => True
  | unboundIdentifier _ | invalidAssignmentTarget _ | depthLimit _ => False

/-- Where an operator fails, the values of its operands are to blame. -/
theorem Operator.apply_error (op : Operator) {left right : Value} {cause : ExecutionError.Cause}
    (failed : op.apply left right = .error cause) : cause.OfValues := by
  unfold apply at failed
  split at failed
  · unfold relate at failed
    split at failed <;> cases failed
    trivial
  · unfold calculate at failed
    split at failed <;> (try split at failed) <;> cases failed
    all_goals trivial

namespace Execution

/-- What follows a computation goes on from the state that this one leaves, unless it has failed.
So it is whatever the state consists of. -/
theorem bind_apply (action : ExceptT ε (StateM σ) α) (next : α → ExceptT ε (StateM σ) β)
    (state : σ) : (action >>= next) state =
      match action state with
      | (.ok a, after) => next a after
      | (.error e, after) => (.error e, after) := by
  simp only [bind, ExceptT.bind, ExceptT.mk, StateT.bind]
  generalize action state = outcome
  obtain ⟨result, after⟩ := outcome
  cases result <;> rfl

theorem nested_of_room {state : Interpreter} (room : state.depth < state.limits.evaluation)
    (action : Execution α) : nested action state =
      let (result, after) := action { state with depth := state.depth + 1 }
      (result, { after with depth := after.depth - 1 }) :=
  if_pos room

theorem nested_of_full {state : Interpreter} (full : ¬ state.depth < state.limits.evaluation)
    (action : Execution α) :
    nested action state = (.error (.bare (.depthLimit state.limits.evaluation)), state) :=
  if_neg full

theorem lookup_apply (name : String) (state : Interpreter) : lookup name state =
    match state.get? name with
    | some value => (.ok value, state)
    | none => (.error (.bare (.unboundIdentifier name)), state) := by
  rw [lookup, bind_apply]
  change (match state.get? name with
    | some value => pure value
    | none => fail _ : Execution Value) state = _
  cases state.get? name <;> rfl

theorem evaluate_binary {op : Operator} (computes : op.Computes) (left right : Expr) :
    evaluate (.binary op left right) = nested
      (evaluate left >>= fun first => evaluate right >>= fun second =>
        ofExcept (op.apply first second)) := by
  obtain ⟨notOr, notAnd, notAssign⟩ := computes
  cases op <;> first | rfl | contradiction

end Execution
end Scriptlet
