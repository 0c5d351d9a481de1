import Scriptlet.Proofs.Evaluation.Agreement

/-! A program and the same block as a statement. Run as a program, a block shares the global scope;
executed as a statement, it takes one level more and has a scope of its own. The names that it binds
live elsewhere then, and are forgotten, but the run takes the same steps: one level deeper under a
limit that is greater by one, with everything bound to the same values. -/
namespace Scriptlet

/-- An error as it is under a limit that is greater by one. -/
def ExecutionError.raised (e : ExecutionError) : ExecutionError :=
  match e.cause with
  | .depthLimit limit => { e with cause := .depthLimit (limit + 1) }
  | _ => e

theorem ExecutionError.raised_within (site : Site) (e : ExecutionError) :
    (e.within site).raised = e.raised.within site := by
  obtain ⟨cause, site?⟩ := e
  cases cause <;> cases site? <;> rfl

namespace Coupling

/-- Two runs on stores with the same bindings, the second one a level deeper under a limit that is
greater by one. -/
def deeper : Coupling where
  nestings nesting other := other = ⟨nesting.depth + 1, nesting.limit + 1⟩
  stores store store' := AgreeOn (fun _ => True) store.get? store'.get?
  recast := ExecutionError.raised

/-- A level further in, as many levels are free under the greater limit. -/
theorem kept_deeper : deeper.KeptBy fun _ => True where
  inner := fun _ _ _ => trivial
  room := by
    rintro nesting _ rfl
    exact Nat.succ_lt_succ_iff.symm
  level := by
    rintro nesting _ rfl
    rfl
  full := by
    rintro nesting _ rfl
    rfl
  bare := by
    intro cause other
    cases cause with
    | depthLimit limit => exact absurd rfl (other limit)
    | _ => rfl
  within := ExecutionError.raised_within
  leave := AgreeOn.keep
  lookup := fun _ agree => agree _ trivial
  assign := fun value _ agree => agree.insert _ value

end Coupling

namespace FlatExecution

/-- A block has the outcome that its statements have on the next level, but for what is forgotten. -/
theorem execute_block_apply (body : List Stmt) {depth limit : Nat} (room : depth < limit)
    (store : Scope) :
    let inside := executeAll .unit body ⟨depth + 1, limit⟩ store
    execute (.block body) ⟨depth, limit⟩ store = (inside.1, inside.2.keep store) := by
  have entered : (⟨depth, limit⟩ : Nesting).depth < (⟨depth, limit⟩ : Nesting).limit := room
  rw [execute_block, nested_of_room entered]
  rfl

end FlatExecution

/-- A block that is executed as a statement keeps the names that were bound before it, with the
values that they have after the same program. -/
theorem Interpreter.Idle.block_beside_program {direct around : Interpreter} {limit : Nat}
    (idle : direct.Idle ⟨parsing, limit⟩) (idle' : around.Idle ⟨parsing', limit + 1⟩)
    (same : ∀ name, direct.get? name = around.get? name) (body : List Stmt) :
    (around.execute (.block body)).1 =
        (direct.interpret (.block body)).1.mapError ExecutionError.raised ∧
      ∀ name, (around.execute (.block body)).2.get? name =
        if (direct.get? name).isSome then (direct.interpret (.block body)).2.get? name else none := by
  have globals : AgreeOn (fun _ => True) direct.globals.get? around.globals.get? := by
    intro name _
    rw [← idle.get?_eq, ← idle'.get?_eq, same]
  obtain ⟨alike, after⟩ := Coupling.kept_deeper.executeAll .unit body (fun _ _ => trivial)
    ⟨0, limit⟩ _ direct.globals around.globals rfl globals
  -- the block itself takes the level by which the second run is deeper
  have inside := FlatExecution.execute_block_apply body limit.succ_pos around.globals
  obtain ⟨result, lookups⟩ := (idle.agrees (.executeAll .unit body)).same
  obtain ⟨result', lookups'⟩ := (idle'.agrees (.execute (.block body))).same
  rw [FlatExecution.start, inside] at result' lookups'
  constructor
  · exact result'.trans (alike.trans (congrArg _ result.symm))
  · intro name
    refine (lookups' name).trans ?_
    rw [Scope.get?_keep, Scope.binds, ← idle'.get?_eq, ← same, ← after name trivial]
    exact congrArg (ite _ · none) (lookups name).symm

/-- A block that is executed as a statement, under a limit that is greater by one, does what it does
as a program from the same global bindings: it has the same value, or fails with the same error but
for the number of the limit. A name that was bound has the same value after both. A name that was
not is bound after the program only, if at all. -/
theorem root_block_agrees (parsing parsing' limit : Nat) (calls others : List Interpreter.Call)
    (body : List Stmt) :
    let direct := Interpreter.session ⟨parsing, limit⟩ calls
    let around := Interpreter.session ⟨parsing', limit + 1⟩ others
    let program := direct.interpret (.block body)
    let block := around.execute (.block body)
    (∀ name, direct.get? name = around.get? name) →
      block.1 = program.1.mapError ExecutionError.raised ∧
      (∀ name, (direct.get? name).isSome = true →
        (program.2.get? name).isSome = true ∧ block.2.get? name = program.2.get? name) ∧
      ∀ name, direct.get? name = none → block.2.get? name = none := by
  intro direct around program block same
  have idle := Interpreter.session_idle ⟨parsing, limit⟩ calls
  have idle' := Interpreter.session_idle ⟨parsing', limit + 1⟩ others
  obtain ⟨result, after⟩ := idle.block_beside_program idle' same body
  refine ⟨result, ?_, ?_⟩
  · intro name bound
    have touches := idle.touches (.executeAll .unit body) (.interpret (.block body))
    exact ⟨touches.bound name bound, (after name).trans (if_pos bound)⟩
  · intro name free
    refine (after name).trans (if_neg ?_)
    rw [free]
    exact Bool.false_ne_true

section LostName

/-- The statements `a = false; b = a; { { b; } }`. -/
def lostName : List Stmt :=
  [.expression (.binary .assign (.identifier "a") (.boolean false)),
    .expression (.binary .assign (.identifier "b") (.identifier "a")),
    .block [.block [.expression (.identifier "b")]]]

theorem lostName_fails :
    ((Interpreter.session ⟨9, 3⟩ [.define "a" (.boolean true)]).interpret (.block lostName)).1 =
      .error ⟨.depthLimit 3, some (.expression (.identifier "b"))⟩ := by
  decide +kernel

/-- Both runs fail where no level is left for the last `b`, which is bound after the program only. -/
theorem lostName_agrees :
    let direct := Interpreter.session ⟨9, 3⟩ [.define "a" (.boolean true)]
    let around := Interpreter.session ⟨9, 4⟩ [.define "a" .unit, .define "a" (.boolean true)]
    let program := direct.interpret (.block lostName)
    let block := around.execute (.block lostName)
    (∀ name, direct.get? name = around.get? name) ∧
      program.1 = .error ⟨.depthLimit 3, some (.expression (.identifier "b"))⟩ ∧
      block.1 = .error ⟨.depthLimit 4, some (.expression (.identifier "b"))⟩ ∧
      program.2.get? "a" = some (.boolean false) ∧ block.2.get? "a" = program.2.get? "a" ∧
      program.2.get? "b" = some (.boolean false) ∧ block.2.get? "b" = none := by
  intro direct around program block
  have scopes : direct.scopes = around.scopes := rfl
  have same : ∀ name, direct.get? name = around.get? name :=
    fun name => congrArg (ScopeChain.get? · name) scopes
  obtain ⟨result, bound, unbound⟩ := root_block_agrees 9 9 3 [.define "a" (.boolean true)]
    [.define "a" .unit, .define "a" (.boolean true)] lostName same
  have fails := result.trans (congrArg _ lostName_fails)
  refine ⟨same, lostName_fails, fails, ?_, (bound "a" ?_).2, ?_, unbound "b" ?_⟩
  all_goals decide +kernel

end LostName
end Scriptlet
