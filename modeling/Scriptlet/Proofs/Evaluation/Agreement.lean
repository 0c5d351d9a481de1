import Mathlib.Control.Monad.Basic
import Scriptlet.Proofs.Evaluation.Footprint

/-! What can make a difference to a program. Nothing does but the names that occur in its tree: two
interpreters that agree on them run it alike, to the same result or the same failure, and agree on
them again. -/
namespace Scriptlet

/-- The name that an expression consists of. -/
def Expr.name? : Expr → Option String
  | identifier name => some name
  | _ => none

/-- The names that occur among expressions. -/
def Expr.names (nodes : List Expr) : List String := nodes.filterMap name?

/-- Two look-ups agree on the known names. -/
def AgreeOn (known : String → Prop) (lookup other : String → Option Value) : Prop :=
  ∀ name, known name → lookup name = other name

namespace AgreeOn

variable {known : String → Prop}

theorem insert {store store' : Scope} (agree : AgreeOn known store.get? store'.get?)
    (name : String) (value : Value) :
    AgreeOn known (store.insert name value).get? (store'.insert name value).get? := by
  intro other among
  rw [Scope.get?_insert, Scope.get?_insert, agree other among]

/-- Where two stores agree, a block that is left forgets the same names of both. -/
theorem keep {before before' after after' : Scope} (agree : AgreeOn known before.get? before'.get?)
    (inside : AgreeOn known after.get? after'.get?) :
    AgreeOn known (after.keep before).get? (after'.keep before').get? := by
  intro name among
  rw [Scope.get?_keep, Scope.get?_keep, Scope.binds, Scope.binds, agree name among,
    inside name among]

end AgreeOn

/-- Two runs on stores that agree on the known names. -/
def Coupling.agreeing (known : String → Prop) : Coupling where
  nestings := Eq
  stores store store' := AgreeOn known store.get? store'.get?
  recast := id

/-- What the stores bind to other names than those of a part does not matter to it. -/
theorem kept_agreement (known : String → Prop) :
    (Coupling.agreeing known).KeptBy fun part => ∀ name ∈ Expr.names part.nodes, known name where
  inner := fun mentions p inside name among =>
    mentions name (List.filterMap_subset _ (Part.nodes_inner inside) among)
  room := by rintro _ _ rfl; exact Iff.rfl
  level := by rintro _ _ rfl; rfl
  full := by rintro _ _ rfl; rfl
  bare := fun _ => rfl
  within := fun _ _ => rfl
  leave := AgreeOn.keep
  lookup := fun mentions agree => agree _ (mentions _ (List.mem_singleton_self _))
  assign := fun value _ agree => agree.insert _ value

/-- Two outcomes with the same result, after which the known names have the same values. -/
structure Alike (known : String → Prop) (outcome twin : Except ExecutionError Value × Interpreter) :
    Prop where
  result : outcome.1 = twin.1
  agree : AgreeOn known outcome.2.get? twin.2.get?

theorem mapError_id (result : Except ε α) : result.mapError id = result := by
  cases result <;> rfl

theorem Interpreter.Idle.alike {limits : Limits} {state twin : Interpreter}
    (idle : state.Idle limits) (idle' : twin.Idle limits) {action : Execution Value}
    {flat : FlatExecution Value} (refines : Refines action flat)
    (couples : (Coupling.agreeing known).Couples Value flat flat)
    (agree : AgreeOn known state.get? twin.get?) : Alike known (action state) (action twin) := by
  obtain ⟨result, lookups⟩ := (idle.agrees refines).same
  obtain ⟨result', lookups'⟩ := (idle'.agrees refines).same
  have globals : AgreeOn known state.globals.get? twin.globals.get? := by
    intro name among
    rw [← idle.get?_eq, ← idle'.get?_eq]
    exact agree name among
  obtain ⟨same, after⟩ := couples ⟨0, limits.evaluation⟩ _ _ _ rfl globals
  constructor
  · rw [result, result']
    exact (same.trans (mapError_id _)).symm
  · intro name among
    rw [lookups, lookups']
    exact after name among

/-- Two interpreters with the same limits, each at any point of a session, run every tree alike if
the names in it have the same values for both, or none; afterwards that is so again. Nothing is
asked of other names. -/
theorem unmentioned_never_matters (limits : Limits) (calls others : List Interpreter.Call) :
    let state := Interpreter.session limits calls
    let twin := Interpreter.session limits others
    (∀ root : Stmt, AgreeOn (· ∈ Expr.names root.nodes) state.get? twin.get? →
      Alike (· ∈ Expr.names root.nodes) (state.interpret root) (twin.interpret root)) ∧
    (∀ s : Stmt, AgreeOn (· ∈ Expr.names s.nodes) state.get? twin.get? →
      Alike (· ∈ Expr.names s.nodes) (state.execute s) (twin.execute s)) ∧
    ∀ e : Expr, AgreeOn (· ∈ Expr.names e.nodes) state.get? twin.get? →
      Alike (· ∈ Expr.names e.nodes) (state.evaluate e) (twin.evaluate e) := by
  intro state twin
  have idle := Interpreter.session_idle limits calls
  have idle' := Interpreter.session_idle limits others
  refine ⟨?_, ?_, ?_⟩
  · intro root agree
    refine idle.alike idle' (.executeAll .unit root.statements) ?_ agree
    refine (kept_agreement _).executeAll .unit root.statements fun s among name mentioned => ?_
    exact List.filterMap_subset _ (root.nodes_subset_root s among) mentioned
  · intro s agree
    exact idle.alike idle' (.execute s) ((kept_agreement _).execute s fun _ among => among) agree
  · intro e agree
    exact idle.alike idle' (.evaluate e) ((kept_agreement _).evaluate e fun _ among => among) agree

/-- The statement `if (a) { b = "on"; b == c; }`. -/
def localFlag : Stmt :=
  .ifThen (.identifier "a") (.block
    [.expression (.binary .assign (.identifier "b") (.string "on")),
      .expression (.binary .equal (.identifier "b") (.identifier "c"))])

/-- It fails alike, since `c` is bound for neither, although the second interpreter knows a name
that the first does not. -/
theorem localFlag_alike :
    let state := Interpreter.session {} [.define "a" (.boolean true)]
    let twin := Interpreter.session {} [.define "d" .unit, .define "a" (.boolean true)]
    AgreeOn (· ∈ Expr.names localFlag.nodes) state.get? twin.get? ∧
      state.get? "d" ≠ twin.get? "d" ∧
      (state.execute localFlag).1 = .error ⟨.unboundIdentifier "c",
        some (.expression (.binary .equal (.identifier "b") (.identifier "c")))⟩ ∧
      Alike (· ∈ Expr.names localFlag.nodes) (state.execute localFlag) (twin.execute localFlag) := by
  intro state twin
  have agree : AgreeOn (· ∈ Expr.names localFlag.nodes) state.get? twin.get? := by
    unfold AgreeOn
    decide +kernel
  obtain ⟨_, executes, _⟩ := unmentioned_never_matters {} [.define "a" (.boolean true)]
    [.define "d" .unit, .define "a" (.boolean true)]
  exact ⟨agree, by decide +kernel, by decide +kernel, executes localFlag agree⟩

end Scriptlet
