import Scriptlet.Proofs.Evaluation.Watched

/-! What holds of the scopes throughout. If entering a scope, leaving it and assigning keep a
property of the chain of scopes, the property holds at every point of every run, also of one that
fails. Assigning may need a proper value to do so; then the values that programs compute, and those
that they read from the scopes, have to be proper. -/
namespace Scriptlet

/-- Operators compute values other than `unit`. -/
theorem Operator.apply_computed {op : Operator} {left right value : Value}
    (applied : op.apply left right = .ok value) : value ≠ .unit := by
  unfold apply at applied
  split at applied
  · unfold relate at applied
    split at applied <;> cases applied <;> nofun
  · unfold calculate at applied
    split at applied <;> (try split at applied) <;> cases applied <;> nofun

/-- A property of the chain of scopes that programs keep, where they bind proper values. -/
structure Standing (holds : ScopeChain → Prop) (proper : Value → Prop) : Prop where
  enter : ∀ {chain}, holds chain → holds chain.enter
  leave : ∀ {chain}, holds chain → holds chain.leave
  set : ∀ {chain name value}, holds chain → proper value → holds (chain.set name value)
  found : ∀ {chain name value}, holds chain → chain.get? name = some value → proper value
  computed : ∀ {value}, value ≠ .unit → proper value

/-- The property holds in every state that is noted of a level. -/
structure Visit.Throughout (holds : ScopeChain → Prop) (visit : Visit) : Prop where
  entry : holds visit.entry.scopes
  counted : ∀ first last, visit.counted = some (first, last) →
    holds first.scopes ∧ holds last.scopes
  exit : holds visit.exit.scopes

/-- The property holds now, and it has held in every level so far. -/
structure Watch.Throughout (holds : ScopeChain → Prop) (watch : Watch) : Prop where
  now : holds watch.state.scopes
  visits : ∀ visit ∈ watch.visits, visit.Throughout holds

/-- The property holds throughout a computation, and what it returns is as it should be. -/
def Upholds (holds : ScopeChain → Prop) (post : α → Prop) (action : Watched α) : Prop :=
  ∀ watch, watch.Throughout holds →
    (action watch).2.Throughout holds ∧ ∀ a, (action watch).1 = .ok a → post a

namespace Upholds

variable {holds : ScopeChain → Prop} {proper : Value → Prop} {post : α → Prop}
  {action : Watched α}

theorem weaken {weaker : α → Prop} (upholds : Upholds holds post action)
    (implies : ∀ a, post a → weaker a) : Upholds holds weaker action :=
  fun watch before =>
    ⟨(upholds watch before).1, fun a returned => implies a ((upholds watch before).2 a returned)⟩

theorem pure (returned : post a) : Upholds holds post (Pure.pure a : Watched α) := by
  rintro watch before
  refine ⟨before, ?_⟩
  rintro _ ⟨⟩
  exact returned

theorem fail (cause : ExecutionError.Cause) :
    Upholds holds post (Machine.fail cause : Watched α) :=
  fun _ before => ⟨before, nofun⟩

theorem bind {next : α → Watched β} {last : β → Prop} (first : Upholds holds post action)
    (onward : ∀ a, post a → Upholds holds last (next a)) :
    Upholds holds last (action >>= next) := by
  intro watch before
  obtain ⟨between, returned⟩ := first watch before
  rw [Execution.bind_apply]
  cases outcome : action watch with
  | mk result after =>
    rw [outcome] at between returned
    cases result with
    | error e => exact ⟨between, nofun⟩
    | ok a => exact onward a (returned a rfl) after between

theorem nested (part : Part) (upholds : Upholds holds post action) :
    Upholds holds post (Machine.nested part action) := by
  rintro ⟨state, visits⟩ ⟨now, noted⟩
  change (Watched.nested part action _).2.Throughout holds ∧
    ∀ a, (Watched.nested part action _).1 = .ok a → post a
  by_cases room : state.depth < state.limits.evaluation
  · obtain ⟨inside, returned⟩ :=
      upholds ⟨{ state with depth := state.depth + 1 }, []⟩ ⟨now, List.forall_mem_nil _⟩
    simp only [Watched.nested, if_pos room]
    refine ⟨⟨inside.now, ?_⟩, returned⟩
    -- What was noted before comes first, then the levels inside, then this one.
    refine List.forall_mem_append.mpr ⟨noted, List.forall_mem_append.mpr ⟨inside.visits, ?_⟩⟩
    refine List.forall_mem_singleton.mpr ⟨now, ?_, inside.now⟩
    rintro _ _ ⟨⟩
    exact ⟨now, inside.now⟩
  · simp only [Watched.nested, if_neg room]
    refine ⟨⟨now, List.forall_mem_append.mpr ⟨noted, ?_⟩⟩, by rintro _ ⟨⟩⟩
    refine List.forall_mem_singleton.mpr ⟨now, ?_, now⟩
    rintro _ _ ⟨⟩

theorem enclosed (standing : Standing holds proper) (upholds : Upholds holds post action) :
    Upholds holds post (Machine.enclosed action) := by
  rintro ⟨state, visits⟩ ⟨now, noted⟩
  obtain ⟨inside, returned⟩ :=
    upholds ⟨{ state with scopes := state.scopes.enter }, visits⟩ ⟨standing.enter now, noted⟩
  exact ⟨⟨standing.leave inside.now, inside.visits⟩, returned⟩

theorem during (site : ExecutionError.Site) (upholds : Upholds holds post action) :
    Upholds holds post (Machine.during site action) := by
  intro watch before
  obtain ⟨after, returned⟩ := upholds watch before
  refine ⟨after, fun a same => returned a ?_⟩
  change ((action watch).1.mapError _) = .ok a at same
  cases outcome : (action watch).1 with
  | error e => rw [outcome] at same; cases same
  | ok b => rw [outcome] at same; exact same

theorem lookup (standing : Standing holds proper) (name : String) :
    Upholds holds proper (Machine.lookup name : Watched Value) := by
  rintro ⟨state, visits⟩ ⟨now, noted⟩
  change Watch.Throughout holds ⟨(Execution.lookup name state).2, visits⟩ ∧
    ∀ a, (Execution.lookup name state).1 = .ok a → proper a
  rw [Execution.lookup_apply]
  cases bound : state.get? name with
  | none => exact ⟨⟨now, noted⟩, nofun⟩
  | some value =>
    refine ⟨⟨now, noted⟩, ?_⟩
    rintro _ ⟨⟩
    exact standing.found now bound

theorem assign (standing : Standing holds proper) (name : String) (bound : proper value) :
    Upholds holds (fun _ => True) (Machine.assign name value : Watched Unit) :=
  fun _ before => ⟨⟨standing.set before.now bound, before.visits⟩, fun _ _ => trivial⟩

theorem logicalOperand (op : Operator) (value : Value) :
    Upholds holds (fun _ => True) (Machine.logicalOperand op value : Watched Bool) := by
  cases value with
  | boolean value => exact .pure trivial
  | _ => exact .fail _

theorem ofExcept {result : Except ExecutionError.Cause α}
    (returned : ∀ a, result = .ok a → post a) :
    Upholds holds post (Machine.ofExcept result : Watched α) := by
  cases result with
  | ok a => exact .pure (returned a rfl)
  | error cause => exact .fail cause

/-- Evaluating an expression keeps the property, and its value is proper. -/
theorem evaluate (standing : Standing holds proper) (e : Expr) :
    Upholds holds proper (Machine.evaluate e : Watched Value) := by
  have boolean (value : Bool) : proper (.boolean value) := standing.computed nofun
  induction e with
  | number value => exact .nested _ (.pure (standing.computed nofun))
  | string value => exact .nested _ (.pure (standing.computed nofun))
  | boolean value => exact .nested _ (.pure (boolean value))
  | identifier name => exact .nested _ (.lookup standing name)
  | binary op left right first second =>
    by_cases computes : op.Computes
    · rw [Machine.evaluate_binary computes]
      exact .nested _ (.bind first fun _ _ => .bind second fun _ _ =>
        .ofExcept fun _ applied => standing.computed (Operator.apply_computed applied))
    have operand (op : Operator) : Upholds holds proper
        (do return .boolean (← Machine.logicalOperand op (← Machine.evaluate right))) :=
      .bind second fun value _ => .bind (.logicalOperand op value) fun _ _ => .pure (boolean _)
    cases op
    case or =>
      refine .nested _ (.bind first fun value _ =>
        .bind (.logicalOperand .or value) fun holds _ => ?_)
      cases holds with
      | true => exact .pure (boolean true)
      | false => exact operand .or
    case and =>
      refine .nested _ (.bind first fun value _ =>
        .bind (.logicalOperand .and value) fun holds _ => ?_)
      cases holds with
      | true => exact operand .and
      | false => exact .pure (boolean false)
    case assign =>
      cases left
      case identifier name =>
        exact .nested _ (.bind second fun value computed =>
          .bind (.assign standing name computed) fun _ _ => .pure computed)
      all_goals exact .nested _ (.fail _)
    all_goals exact absurd ⟨nofun, nofun, nofun⟩ computes

theorem choose {chosen other : Watched Value} {post : Value → Prop}
    (taken : Upholds holds post chosen) (otherwise : Upholds holds post other) (value : Value) :
    Upholds holds post (Machine.choose chosen other value) := by
  cases value with
  | boolean value => cases value with
    | true => exact taken
    | false => exact otherwise
  | _ => exact .fail _

mutual

/-- Executing a statement keeps the property. -/
theorem execute (standing : Standing holds proper) (s : Stmt) :
    Upholds holds (fun _ => True) (Machine.execute s : Watched Value) := by
  cases s with
  | expression value =>
    exact .nested _ (.during _ ((evaluate standing value).weaken fun _ _ => trivial))
  | block body => exact .nested _ (.enclosed standing (executeAll standing .unit body))
  | ifThen condition branch =>
    exact .nested _ (.during _ (.bind (evaluate standing condition) fun value _ =>
      .choose (execute standing branch) (.pure trivial) value))
  | ifThenElse condition branch otherwise =>
    exact .nested _ (.during _ (.bind (evaluate standing condition) fun value _ =>
      .choose (execute standing branch) (execute standing otherwise) value))

theorem executeAll (standing : Standing holds proper) (last : Value) (body : List Stmt) :
    Upholds holds (fun _ => True) (Machine.executeAll last body : Watched Value) := by
  cases body with
  | nil => exact .pure trivial
  | cons s rest => exact .bind (execute standing s) fun value _ => executeAll standing value rest

end

end Upholds

/-- Where no scope is open but the global one, defining a name sets it. -/
theorem ScopeChain.define_eq_set {chain : ScopeChain} (outermost : chain.outer = [])
    (name : String) (value : Value) : chain.define name value = chain.set name value := by
  obtain ⟨_, eq⟩ | ⟨_, changed, found, _⟩ | ⟨_, eq⟩ := chain.set_cases name value
  · exact eq.symm
  · rw [outermost] at found
    contradiction
  · exact eq.symm

namespace Standing

variable {holds : ScopeChain → Prop} {proper : Value → Prop} {limits : Limits}
  {state : Interpreter}

theorem evaluate (standing : Standing holds proper) (now : holds state.scopes)
    (bounded : state.depth ≤ state.limits.evaluation) (e : Expr) :
    holds (Execution.evaluate e state).2.scopes ∧
      ∀ value, (Execution.evaluate e state).1 = .ok value → proper value := by
  obtain ⟨more, same, _⟩ := (Part.expression e).watches state [] bounded
  obtain ⟨after, returned⟩ :=
    Upholds.evaluate standing e ⟨state, []⟩ ⟨now, List.forall_mem_nil _⟩
  rw [← Part.watched, same] at after returned
  exact ⟨after.now, returned⟩

theorem execute (standing : Standing holds proper) (now : holds state.scopes)
    (bounded : state.depth ≤ state.limits.evaluation) (s : Stmt) :
    holds (Execution.execute s state).2.scopes := by
  obtain ⟨more, same, _⟩ := (Part.statement s).watches state [] bounded
  have after := (Upholds.execute standing s ⟨state, []⟩ ⟨now, List.forall_mem_nil _⟩).1
  rw [← Part.watched, same] at after
  exact after.now

/-- The property holds throughout a call between runs. -/
theorem watch (standing : Standing holds proper) (idle : state.Idle limits)
    (now : holds state.scopes) {call : Interpreter.Call}
    (defined : ∀ name value, call = .define name value → proper value) :
    (state.watch call).Throughout holds := by
  have start : Watch.Throughout holds ⟨state, []⟩ := ⟨now, List.forall_mem_nil _⟩
  cases call with
  | define name value =>
    refine ⟨?_, List.forall_mem_nil _⟩
    change holds (state.scopes.define name value)
    rw [ScopeChain.define_eq_set idle.outer]
    exact standing.set now (defined name value rfl)
  | run source =>
    rw [Interpreter.watch]
    split
    · exact start
    · exact (Upholds.executeAll standing .unit _ _ start).1
  | interpret root => exact (Upholds.executeAll standing .unit _ _ start).1
  | execute s => exact (Upholds.execute standing s _ start).1
  | evaluate e => exact (Upholds.evaluate standing e _ start).1

theorem calls (standing : Standing holds proper) (idle : state.Idle limits)
    (now : holds state.scopes) (calls : List Interpreter.Call)
    (defined : ∀ name value, .define name value ∈ calls → proper value) :
    holds (calls.foldl Interpreter.serve state).scopes := by
  induction calls generalizing state with
  | nil => exact now
  | cons call rest ih =>
    have after := standing.watch idle now fun name value same =>
      defined name value (same ▸ List.mem_cons_self ..)
    refine ih (idle.serve call) ?_ fun name value among =>
      defined name value (List.mem_cons_of_mem _ among)
    rw [← (Interpreter.watch_serve idle call).1]
    exact after.now

/-- The property holds between the calls of a session. -/
theorem session (standing : Standing holds proper) (initially : holds .global)
    (limits : Limits) (calls : List Interpreter.Call)
    (defined : ∀ name value, .define name value ∈ calls → proper value) :
    holds (Interpreter.session limits calls).scopes :=
  standing.calls (.new limits) initially calls defined

end Standing
end Scriptlet
