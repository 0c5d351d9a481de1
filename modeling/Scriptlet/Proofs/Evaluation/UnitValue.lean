import Scriptlet.Proofs.Evaluation.Throughout
import Scriptlet.Proofs.Evaluation.Unnamed

/-! The value `unit`. Programs compute it nowhere but at the end of what they complete: no name is
ever bound to it, no expression has it as its value, and a statement has it only if the last thing
that completes in it is a block without statements, or a conditional without another branch whose
condition is false. -/
namespace Scriptlet

section Scopes

/-- No scope binds a name to `unit`. -/
def Unitless (scopes : List Scope) : Prop :=
  ∀ scope ∈ scopes, ∀ name, scope.get? name ≠ some .unit

theorem Scope.insert_unitless {scope : Scope} {value : Value}
    (before : ∀ name, scope.get? name ≠ some .unit) (computed : value ≠ .unit)
    (name other : String) : (scope.insert name value).get? other ≠ some .unit := by
  rw [get?_insert]
  split
  · exact fun same => computed (Option.some.inj same)
  · exact before other

theorem Unitless.define {chain : ScopeChain} (unitless : Unitless chain.scopes) {value : Value}
    (computed : value ≠ .unit) (name : String) : Unitless (chain.define name value).scopes := by
  obtain ⟨first, others⟩ := List.forall_mem_cons.mp unitless
  exact List.forall_mem_cons.mpr ⟨Scope.insert_unitless first computed name, others⟩

theorem Unitless.reassign {scopes changed : List Scope} (unitless : Unitless scopes)
    {value : Value} (computed : value ≠ .unit)
    (found : ScopeChain.reassign? name value scopes = some changed) : Unitless changed := by
  induction scopes generalizing changed with
  | nil => contradiction
  | cons scope outer ih =>
    obtain ⟨first, others⟩ := List.forall_mem_cons.mp unitless
    rw [ScopeChain.reassign?] at found
    split at found
    · cases found
      exact List.forall_mem_cons.mpr ⟨Scope.insert_unitless first computed name, others⟩
    · obtain ⟨rest, further, rfl⟩ := Option.map_eq_some_iff.mp found
      exact List.forall_mem_cons.mpr ⟨first, ih others further⟩

theorem Unitless.set {chain : ScopeChain} (unitless : Unitless chain.scopes) {value : Value}
    (computed : value ≠ .unit) (name : String) : Unitless (chain.set name value).scopes := by
  obtain ⟨_, eq⟩ | ⟨_, changed, found, eq⟩ | ⟨_, eq⟩ := chain.set_cases name value
  · rw [eq]
    exact unitless.define computed name
  · obtain ⟨first, others⟩ := List.forall_mem_cons.mp unitless
    rw [eq]
    exact List.forall_mem_cons.mpr ⟨first, Unitless.reassign others computed found⟩
  · rw [eq]
    exact unitless.define computed name

/-- Programs bind no name to `unit` as long as none is. -/
theorem unitless_standing : Standing (fun chain => Unitless chain.scopes) (· ≠ .unit) where
  enter := fun unitless => List.forall_mem_cons.mpr ⟨nofun, unitless⟩
  leave := by
    intro chain unitless
    by_cases inside : chain.outer = []
    · rw [ScopeChain.leave, inside]
      exact unitless
    · rw [ScopeChain.scopes_leave inside]
      exact (List.forall_mem_cons.mp unitless).2
  set := fun unitless computed => unitless.set computed _
  found := by
    rintro chain name _ unitless found rfl
    obtain ⟨scope, among, bound⟩ := List.exists_of_findSome?_eq_some found
    exact unitless scope among name bound
  computed := id

end Scopes

section Completion

/-- The state in which a part of a statement starts. -/
def Interpreter.deeper (state : Interpreter) : Interpreter :=
  { state with depth := state.depth + 1 }

mutual

/-- A statement completes, and what completes last in it computes nothing: a block without
statements, or a conditional that skips its only branch. -/
inductive ComputesNothing : Stmt → Interpreter → Prop where
  | empty : state.depth < state.limits.evaluation → ComputesNothing (.block []) state
  | block : state.depth < state.limits.evaluation → LastComputesNothing body state.inBlock →
      ComputesNothing (.block body) state
  | skipped : state.depth < state.limits.evaluation →
      Execution.evaluate condition state.deeper = (.ok (.boolean false), after) →
      ComputesNothing (.ifThen condition branch) state
  | taken : state.depth < state.limits.evaluation →
      Execution.evaluate condition state.deeper = (.ok (.boolean true), after) →
      ComputesNothing branch after → ComputesNothing (.ifThen condition branch) state
  | chosen : state.depth < state.limits.evaluation →
      Execution.evaluate condition state.deeper = (.ok (.boolean true), after) →
      ComputesNothing branch after →
      ComputesNothing (.ifThenElse condition branch otherwise) state
  | otherwise : state.depth < state.limits.evaluation →
      Execution.evaluate condition state.deeper = (.ok (.boolean false), after) →
      ComputesNothing otherwise after →
      ComputesNothing (.ifThenElse condition branch otherwise) state

/-- Some statements are executed, and the last one of them computes nothing. -/
inductive LastComputesNothing : List Stmt → Interpreter → Prop where
  | last : ComputesNothing s state → LastComputesNothing [s] state
  | later : Execution.execute s state = (.ok value, between) → LastComputesNothing rest between →
      LastComputesNothing (s :: rest) state

end

namespace Execution

variable {state after : Interpreter}

theorem nested_ok_iff {action : Execution α} {a : α} : (nested action state).1 = .ok a ↔
    state.depth < state.limits.evaluation ∧ (action state.deeper).1 = .ok a := by
  by_cases room : state.depth < state.limits.evaluation
  · rw [nested_of_room room]
    exact ⟨fun returned => ⟨room, returned⟩, And.right⟩
  · rw [nested_of_full room]
    exact ⟨nofun, fun entered => absurd entered.1 room⟩

theorem during_ok_iff {site : ExecutionError.Site} {action : Execution α} {a : α} :
    (during site action state).1 = .ok a ↔ (action state).1 = .ok a := by
  change (action state).1.mapError _ = .ok a ↔ _
  cases (action state).1 with
  | error e => exact ⟨nofun, nofun⟩
  | ok b => exact Iff.rfl

/-- The value of a conditional comes from the branch that its condition chooses. -/
theorem conditional_ok_iff {site : ExecutionError.Site} {condition : Expr}
    {chosen other : Execution Value} {value : Value} :
    (nested (during site (evaluate condition >>= Machine.choose chosen other)) state).1 =
        .ok value ↔
      state.depth < state.limits.evaluation ∧ ∃ after,
        evaluate condition state.deeper = (.ok (.boolean true), after) ∧
            (chosen after).1 = .ok value ∨
          evaluate condition state.deeper = (.ok (.boolean false), after) ∧
            (other after).1 = .ok value := by
  rw [nested_ok_iff, during_ok_iff, bind_apply]
  refine and_congr_right fun _ => ?_
  cases evaluate condition state.deeper with
  | mk result after =>
    cases result with
    | error e =>
      refine ⟨nofun, ?_⟩
      rintro ⟨_, ⟨⟨⟩, _⟩ | ⟨⟨⟩, _⟩⟩
    | ok value =>
      cases value with
      | boolean holds =>
        cases holds with
        | true =>
          refine ⟨fun returned => ⟨after, .inl ⟨rfl, returned⟩⟩, ?_⟩
          rintro ⟨_, ⟨⟨⟩, returned⟩ | ⟨⟨⟩, _⟩⟩
          exact returned
        | false =>
          refine ⟨fun returned => ⟨after, .inr ⟨rfl, returned⟩⟩, ?_⟩
          rintro ⟨_, ⟨⟨⟩, _⟩ | ⟨⟨⟩, returned⟩⟩
          exact returned
      | _ =>
        refine ⟨nofun, ?_⟩
        rintro ⟨_, ⟨⟨⟩, _⟩ | ⟨⟨⟩, _⟩⟩

/-- No expression has the value `unit`. -/
theorem evaluate_ne_unit (state : Interpreter) (unitless : Unitless state.scopes.scopes)
    (bounded : state.depth ≤ state.limits.evaluation) (e : Expr) :
    (evaluate e state).1 ≠ .ok .unit :=
  fun returned => (unitless_standing.evaluate unitless bounded e).2 .unit returned rfl

/-- The branches of a conditional start without `unit` in a scope if the conditional does. -/
theorem condition_unitless (unitless : Unitless state.scopes.scopes)
    (room : state.depth < state.limits.evaluation) {condition : Expr}
    (returned : evaluate condition state.deeper = (result, after)) :
    Unitless after.scopes.scopes := by
  have start : Unitless state.deeper.scopes.scopes := unitless
  have kept := (unitless_standing.evaluate start room condition).1
  rwa [returned] at kept

mutual

/-- A statement has the value `unit` only if what completes last in it computes nothing. -/
theorem execute_unit_iff (s : Stmt) (state : Interpreter)
    (unitless : Unitless state.scopes.scopes) :
    (execute s state).1 = .ok .unit ↔ ComputesNothing s state := by
  cases s with
  | expression value =>
    rw [execute, nested_ok_iff, during_ok_iff]
    refine ⟨fun ⟨room, returned⟩ => ?_, nofun⟩
    exact absurd returned (evaluate_ne_unit state.deeper unitless room value)
  | block body =>
    rw [execute, nested_ok_iff]
    change state.depth < state.limits.evaluation ∧
      (executeAll .unit body state.inBlock).1 = .ok .unit ↔ _
    have inside := fun room : state.depth < state.limits.evaluation =>
      executeAll_unit_iff .unit body state.inBlock (unitless_standing.enter unitless) room
    constructor
    · rintro ⟨room, returned⟩
      rcases (inside room).mp returned with ⟨rfl, _⟩ | nothing
      · exact .empty room
      · exact .block room nothing
    · intro nothing
      cases nothing with
      | empty room => exact ⟨room, rfl⟩
      | block room nothing => exact ⟨room, (inside room).mpr (.inr nothing)⟩
  | ifThen condition branch =>
    have branches := fun room holds after
        (returned : evaluate condition state.deeper = (.ok (.boolean holds), after)) =>
      execute_unit_iff branch after (condition_unitless unitless room returned)
    refine conditional_ok_iff.trans ⟨?_, fun nothing => ?_⟩
    · rintro ⟨room, after, ⟨returned, nothing⟩ | ⟨returned, _⟩⟩
      · exact .taken room returned ((branches room _ _ returned).mp nothing)
      · exact .skipped room returned
    · cases nothing with
      | skipped room returned => exact ⟨room, _, .inr ⟨returned, rfl⟩⟩
      | taken room returned nothing =>
        exact ⟨room, _, .inl ⟨returned, (branches room _ _ returned).mpr nothing⟩⟩
  | ifThenElse condition branch otherwise =>
    have chosen := fun room after
        (returned : evaluate condition state.deeper = (.ok (.boolean true), after)) =>
      execute_unit_iff branch after (condition_unitless unitless room returned)
    have other := fun room after
        (returned : evaluate condition state.deeper = (.ok (.boolean false), after)) =>
      execute_unit_iff otherwise after (condition_unitless unitless room returned)
    refine conditional_ok_iff.trans ⟨?_, fun nothing => ?_⟩
    · rintro ⟨room, after, ⟨returned, nothing⟩ | ⟨returned, nothing⟩⟩
      · exact .chosen room returned ((chosen room _ returned).mp nothing)
      · exact .otherwise room returned ((other room _ returned).mp nothing)
    · cases nothing with
      | chosen room returned nothing =>
        exact ⟨room, _, .inl ⟨returned, (chosen room _ returned).mpr nothing⟩⟩
      | otherwise room returned nothing =>
        exact ⟨room, _, .inr ⟨returned, (other room _ returned).mpr nothing⟩⟩

/-- Statements in turn have the value `unit` only if the last one does, or if there is none. -/
theorem executeAll_unit_iff (last : Value) (body : List Stmt) (state : Interpreter)
    (unitless : Unitless state.scopes.scopes)
    (bounded : state.depth ≤ state.limits.evaluation) :
    (executeAll last body state).1 = .ok .unit ↔
      (body = [] ∧ last = .unit) ∨ LastComputesNothing body state := by
  cases body with
  | nil =>
    refine ⟨?_, ?_⟩
    · rintro ⟨⟩
      exact .inl ⟨rfl, rfl⟩
    · rintro (⟨_, rfl⟩ | nothing)
      · rfl
      · cases nothing
  | cons s rest =>
    have first := execute_unit_iff s state unitless
    have follows := Interpreter.follows_composes.execute s state
    have kept := unitless_standing.execute unitless bounded s
    rw [executeAll, bind_apply]
    cases outcome : execute s state with
    | mk result between =>
      rw [outcome] at first follows kept
      cases result with
      | error e =>
        refine ⟨nofun, ?_⟩
        rintro (⟨⟨⟩, _⟩ | nothing)
        cases nothing with
        | last nothing => cases first.mpr nothing
        | later done => cases outcome.symm.trans done
      | ok value =>
        -- The value of the first statement is that of all only if no other one follows it.
        have still : between.depth ≤ between.limits.evaluation := by
          rwa [follows.depth, follows.limits]
        refine (executeAll_unit_iff value rest between kept still).trans ⟨?_, ?_⟩
        · rintro (⟨rfl, rfl⟩ | nothing)
          · exact .inr (.last (first.mp rfl))
          · exact .inr (.later outcome nothing)
        · rintro (⟨⟨⟩, _⟩ | nothing)
          cases nothing with
          | last nothing =>
            cases first.mpr nothing
            exact .inl ⟨rfl, rfl⟩
          | later done nothing =>
            cases outcome.symm.trans done
            exact .inr nothing

end

end Execution

end Completion

/-- In a session that defines no name as `unit`, no scope ever binds a name to it, at no point of
any call, whether the call fails or not. No expression has the value `unit`, be it inside another
part or not. A statement or a program has it if and only if what completes last in it computes
nothing. -/
theorem unit_never_stored (limits : Limits) (calls : List Interpreter.Call)
    (defined : ∀ name value, .define name value ∈ calls → value ≠ .unit) :
    let state := Interpreter.session limits calls
    Unitless state.scopes.scopes ∧
    (∀ call, (∀ name value, call = .define name value → value ≠ .unit) →
      (state.watch call).Throughout (fun chain => Unitless chain.scopes) ∧
      ∀ visit ∈ (state.watch call).visits, ∀ e, visit.part = .expression e →
        (visit.part.run visit.entry).1 ≠ .ok .unit) ∧
    (∀ e, (state.evaluate e).1 ≠ .ok .unit) ∧
    (∀ s, (state.execute s).1 = .ok .unit ↔ ComputesNothing s state) ∧
    ∀ root, (state.interpret root).1 = .ok .unit ↔
      root.statements = [] ∨ LastComputesNothing root.statements state := by
  intro state
  have idle := Interpreter.session_idle limits calls
  have bounded : state.depth ≤ state.limits.evaluation := idle.depth ▸ Nat.zero_le _
  have initially : Unitless ScopeChain.global.scopes :=
    List.forall_mem_singleton.mpr fun _ => nofun
  have unitless := unitless_standing.session initially limits calls defined
  refine ⟨unitless, ?_, Execution.evaluate_ne_unit state unitless bounded,
    fun s => Execution.execute_unit_iff s state unitless, ?_⟩
  · intro call computed
    have throughout := unitless_standing.watch idle unitless computed
    refine ⟨throughout, fun visit among e same => ?_⟩
    have entry := (throughout.visits visit among).entry
    have room := ((Interpreter.watch_serve idle call).2 visit among).bounded
    rw [same]
    exact Execution.evaluate_ne_unit visit.entry entry room e
  · intro root
    refine (Execution.executeAll_unit_iff .unit root.statements state unitless bounded).trans ?_
    simp

/-- The program `if (done) {} else if (done) done;`. -/
def nothingDone : Stmt := .block [.ifThenElse (.identifier "done") (.block [])
  (.ifThen (.identifier "done") (.expression (.identifier "done")))]

/-- A flag is defined, and a statement fails. -/
def flagCalls : List Interpreter.Call :=
  [.define "done" (.boolean false), .execute (.expression (.identifier "lost"))]

/-- The program skips the one branch that is left, and binds nothing on the way. -/
theorem nothingDone_unit :
    (∀ name value, .define name value ∈ flagCalls → value ≠ .unit) ∧
    ((Interpreter.session {} flagCalls).interpret nothingDone).1 = .ok .unit ∧
    LastComputesNothing nothingDone.statements (Interpreter.session {} flagCalls) ∧
    ((Interpreter.session {} flagCalls).watch (.interpret nothingDone)).Throughout
      fun chain => Unitless chain.scopes := by
  have defined : ∀ name value, .define name value ∈ flagCalls → value ≠ .unit := by
    simp [flagCalls]
  have completed : ((Interpreter.session {} flagCalls).interpret nothingDone).1 = .ok .unit := by
    decide +kernel
  obtain ⟨_, watched, _, _, program⟩ := unit_never_stored {} flagCalls defined
  refine ⟨defined, completed, ?_, (watched (.interpret nothingDone) nofun).1⟩
  exact ((program nothingDone).mp completed).resolve_left nofun

end Scriptlet
