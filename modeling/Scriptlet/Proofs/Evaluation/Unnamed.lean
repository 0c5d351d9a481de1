import Scriptlet.Proofs.Evaluation.Invariant
import Scriptlet.Proofs.Evaluation.Traced

/-! Errors that name no statement. A statement is named once it has been entered. So where no level
is left for a statement, and nothing but blocks is open around it, the error names nothing; and that
is the only way for a program to fail so. -/
namespace Scriptlet

/-- The state in which the statements of a block start. -/
def Interpreter.inBlock (state : Interpreter) : Interpreter :=
  { state with depth := state.depth + 1, scopes := state.scopes.enter }

mutual

/-- No level is left for a statement, or for one that is reached in blocks of it. -/
inductive ReachesLimit : Stmt → Interpreter → Prop where
  | full : ¬ state.depth < state.limits.evaluation → ReachesLimit s state
  | block : state.depth < state.limits.evaluation → OneReachesLimit body state.inBlock →
      ReachesLimit (.block body) state

/-- Some statements are executed, and the next one reaches the limit. -/
inductive OneReachesLimit : List Stmt → Interpreter → Prop where
  | here : ReachesLimit s state → OneReachesLimit (s :: rest) state
  | later : Execution.execute s state = (.ok value, between) → OneReachesLimit rest between →
      OneReachesLimit (s :: rest) state

end

namespace Execution

variable {state : Interpreter} {cause : ExecutionError.Cause}

/-- What fails as a part of a statement that is named does not fail without a name. -/
theorem during_not_bare (site : ExecutionError.Site) (action : Execution α) :
    (during site action state).1 ≠ .error (.bare cause) := by
  unfold during
  generalize action state = outcome
  obtain ⟨result, after⟩ := outcome
  intro failed
  cases result with
  | ok a => cases failed
  | error e =>
    have unnamed := congrArg ExecutionError.site (Except.error.inj failed)
    obtain ⟨cause, site?⟩ := e
    cases site? <;> cases unnamed

theorem full_bare_iff (full : ¬ state.depth < state.limits.evaluation) (s : Stmt)
    {action : Execution α} : (nested action state).1 = .error (.bare cause) ↔
      ReachesLimit s state ∧ cause = .depthLimit state.limits.evaluation := by
  rw [nested_of_full full]
  constructor
  · intro failed
    cases failed
    exact ⟨.full full, rfl⟩
  · rintro ⟨_, rfl⟩
    rfl

/-- A statement that is named fails without a name only if it is not entered. -/
theorem named_bare_iff {s : Stmt} {site : ExecutionError.Site} {action : Execution α}
    (named : s.site? = some site) : (nested (during site action) state).1 = .error (.bare cause) ↔
      ReachesLimit s state ∧ cause = .depthLimit state.limits.evaluation := by
  by_cases room : state.depth < state.limits.evaluation
  · rw [nested_of_room room]
    constructor
    · intro failed
      exact absurd failed (during_not_bare site action)
    · rintro ⟨reaches, _⟩
      cases reaches with
      | full full => exact absurd room full
      | block => cases named
  · exact full_bare_iff room s

mutual

theorem execute_bare_iff (s : Stmt) (state : Interpreter) (cause : ExecutionError.Cause) :
    (execute s state).1 = .error (.bare cause) ↔
      ReachesLimit s state ∧ cause = .depthLimit state.limits.evaluation := by
  cases s with
  | expression value => exact named_bare_iff rfl
  | ifThen condition branch => exact named_bare_iff rfl
  | ifThenElse condition branch otherwise => exact named_bare_iff rfl
  | block body =>
    by_cases room : state.depth < state.limits.evaluation
    · rw [execute, nested_of_room room]
      refine (executeAll_bare_iff .unit body state.inBlock cause).trans
        (and_congr_left fun _ => ⟨.block room, ?_⟩)
      intro reaches
      cases reaches with
      | full full => exact absurd room full
      | block _ inner => exact inner
    · exact full_bare_iff room _

theorem executeAll_bare_iff (last : Value) (body : List Stmt) (state : Interpreter)
    (cause : ExecutionError.Cause) : (executeAll last body state).1 = .error (.bare cause) ↔
      OneReachesLimit body state ∧ cause = .depthLimit state.limits.evaluation := by
  cases body with
  | nil => exact ⟨nofun, nofun⟩
  | cons s rest =>
    have first := execute_bare_iff s state
    have follows := Interpreter.follows_composes.execute s state
    rw [executeAll, bind_apply]
    cases outcome : execute s state with
    | mk result between =>
      rw [outcome] at first follows
      cases result with
      | error e =>
        -- No statement behind the first one is reached.
        refine (first cause).trans (and_congr_left fun _ => ⟨.here, ?_⟩)
        intro reaches
        cases reaches with
        | here reaches => exact reaches
        | later done => cases outcome.symm.trans done
      | ok value =>
        -- The first one succeeds, so that another one reaches the limit, if any does.
        refine (executeAll_bare_iff value rest between cause).trans ?_
        rw [follows.limits]
        refine and_congr_left fun _ => ⟨.later outcome, ?_⟩
        intro reaches
        cases reaches with
        | here reaches => cases (first _).mpr ⟨reaches, rfl⟩
        | later done onward =>
          cases outcome.symm.trans done
          exact onward

end

/-- An expression fails without a name, since no statement is open in it. -/
theorem evaluate_bare (e : Expr) (state : Interpreter) :
    ∃ result : Except ExecutionError.Cause Value,
      (evaluate e state).1 = result.mapError .bare := by
  have explains : Explains (fun stop => stop.frames = []) Value (Machine.evaluate e) (evaluate e) :=
    .evaluate (fun _ => rfl) e
  obtain ⟨result, after, _, plain, stops⟩ := explains [] state
  rw [plain]
  cases result with
  | ok value => exact ⟨.ok value, rfl⟩
  | error stop =>
    refine ⟨.error stop.cause, ?_⟩
    have unnamed : stop.error = .bare stop.cause := by
      rw [Stop.error, stops stop rfl]
      rfl
    exact congrArg Except.error unnamed

end Execution

/-- A program or a statement that fails names a statement, unless it reaches the depth limit with
nothing but blocks open; then the error says so and names none. An expression never names one. This
holds in every state and for every tree. -/
theorem unnamed_iff_reaches_limit (state : Interpreter) :
    (∀ root cause, (state.interpret root).1 = .error (.bare cause) ↔
      OneReachesLimit root.statements state ∧ cause = .depthLimit state.limits.evaluation) ∧
    (∀ s cause, (state.execute s).1 = .error (.bare cause) ↔
      ReachesLimit s state ∧ cause = .depthLimit state.limits.evaluation) ∧
    ∀ e, ∃ result : Except ExecutionError.Cause Value,
      (state.evaluate e).1 = result.mapError .bare :=
  ⟨fun root => Execution.executeAll_bare_iff .unit root.statements state,
    fun s => Execution.execute_bare_iff s state, fun e => Execution.evaluate_bare e state⟩

/-- The program `{ 1; }`. -/
def enclosedNumber : Stmt := .block [.block [.expression (.number 1)]]

/-- There is a level for the block, and none for the statement in it. -/
theorem enclosedNumber_unnamed :
    ((Interpreter.new { evaluation := 1 }).interpret enclosedNumber).1 =
      .error ⟨.depthLimit 1, none⟩ := by
  decide +kernel

end Scriptlet
