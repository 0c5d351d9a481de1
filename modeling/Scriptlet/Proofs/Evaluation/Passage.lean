import Scriptlet.Proofs.Evaluation.Session
import Scriptlet.Proofs.Evaluation.Throughout

/-! The states that a run passes through. A recording interpreter does what the plain one does, and
keeps every state that it has been in. From one state to the next it makes one of a few steps: it
counts a level or takes it back, enters a scope or leaves it, or sets a name. So what all of these
steps keep holds in every state of every run, also of one that fails. -/
namespace Scriptlet

/-- One step from a state to another one. -/
inductive Interpreter.Step (state : Interpreter) : Interpreter → Prop where
  | deeper : state.depth < state.limits.evaluation →
      Step state { state with depth := state.depth + 1 }
  | shallower : Step state { state with depth := state.depth - 1 }
  | enter : Step state { state with scopes := state.scopes.enter }
  | leave : Step state { state with scopes := state.scopes.leave }
  | set (name : String) (value : Value) :
      Step state { state with scopes := state.scopes.set name value }

/-- A property that every step keeps. -/
def Interpreter.Kept (property : Interpreter → Prop) : Prop :=
  ∀ state next : Interpreter, state.Step next → property state → property next

/-- From the first state to the last, one step after the other, through the states in the list,
which begin with the first one. -/
inductive Passes : Interpreter → List Interpreter → Interpreter → Prop where
  | stay : Passes state [] state
  | step : state.Step next → Passes next passed last → Passes state (state :: passed) last

namespace Passes

variable {first between last : Interpreter} {passed more : List Interpreter}

theorem single (step : first.Step last) : Passes first [first] last := .step step .stay

theorem append (front : Passes first passed between) (back : Passes between more last) :
    Passes first (passed ++ more) last := by
  induction front with
  | stay => exact back
  | step step _ ih => exact .step step (ih back)

/-- What every step keeps holds wherever a run passes. -/
theorem holds {property : Interpreter → Prop} (kept : Interpreter.Kept property)
    (passes : Passes first passed last) (start : property first) :
    (∀ state ∈ passed, property state) ∧ property last := by
  induction passes with
  | stay => exact ⟨List.forall_mem_nil _, start⟩
  | step step _ ih =>
    obtain ⟨others, final⟩ := ih (kept _ _ step start)
    exact ⟨List.forall_mem_cons.mpr ⟨start, others⟩, final⟩

end Passes

/-- The state of an interpreter, and the states that it has been in before, in that order. -/
structure History where
  past : List Interpreter
  now : Interpreter

/-- Goes on to another state. -/
def History.next (history : History) (state : Interpreter) : History :=
  ⟨history.past ++ [history.now], state⟩

/-- Every state that the interpreter has been in. -/
def History.states (history : History) : List Interpreter := history.past ++ [history.now]

/-- A computation that keeps the states that it passes through. -/
abbrev Recorded (α : Type) := ExceptT ExecutionError (StateM History) α

namespace Recorded

def nested (action : Recorded α) : Recorded α := fun history =>
  let state := history.now
  if state.depth < state.limits.evaluation then
    let (result, after) := action (history.next { state with depth := state.depth + 1 })
    (result, after.next { after.now with depth := after.now.depth - 1 })
  else (.error (.bare (.depthLimit state.limits.evaluation)), history)

def enclosed (action : Recorded α) : Recorded α := fun history =>
  let (result, after) :=
    action (history.next { history.now with scopes := history.now.scopes.enter })
  (result, after.next { after.now with scopes := after.now.scopes.leave })

def during (site : ExecutionError.Site) (action : Recorded α) : Recorded α := fun history =>
  let (result, after) := action history
  (result.mapError (·.within site), after)

/-- Looking up changes no state. -/
def lookup (name : String) : Recorded Value := fun history =>
  ((Execution.lookup name history.now).1, history)

def assign (name : String) (value : Value) : Recorded Unit := fun history =>
  (.ok (), history.next { history.now with scopes := history.now.scopes.set name value })

instance : Machine Recorded where
  fail cause := throw (.bare cause)
  nested _ := nested
  enclosed := enclosed
  during := during
  lookup := lookup
  assign := assign

end Recorded

/-- A recording computation does what a plain one does, step by step, and keeps the states on the
way. -/
def Records (α : Type) (recorded : Recorded α) (action : Execution α) : Prop :=
  ∀ (past : List Interpreter) (state : Interpreter), ∃ passed,
    recorded ⟨past, state⟩ = ((action state).1, ⟨past ++ passed, (action state).2⟩) ∧
      Passes state passed (action state).2

namespace Records

theorem pure (a : α) : Records α (Pure.pure a) (Pure.pure a) :=
  fun past _ => ⟨[], by rw [List.append_nil]; rfl, .stay⟩

theorem fail (cause : ExecutionError.Cause) :
    Records α (Machine.fail cause) (Execution.fail cause) :=
  fun past _ => ⟨[], by rw [List.append_nil]; rfl, .stay⟩

theorem bind {x : Recorded α} {y : Execution α} {f : α → Recorded β} {g : α → Execution β}
    (first : Records α x y) (next : ∀ a, Records β (f a) (g a)) :
    Records β (x >>= f) (y >>= g) := by
  intro past state
  obtain ⟨passed, same, passes⟩ := first past state
  rw [Execution.bind_apply, same, Execution.bind_apply]
  generalize y state = outcome at passes ⊢
  obtain ⟨result, between⟩ := outcome
  cases result with
  | error e => exact ⟨passed, rfl, passes⟩
  | ok a =>
    obtain ⟨more, same', onward⟩ := next a (past ++ passed) between
    exact ⟨passed ++ more, by rw [← List.append_assoc]; exact same', passes.append onward⟩

/-- A step before a computation and one after it. -/
theorem around {x : Recorded α} {y : Execution α} (inner : Records α x y)
    {state entered : Interpreter} (leave : Interpreter → Interpreter) (before : state.Step entered)
    (behind : ∀ after : Interpreter, after.Step (leave after)) (past : List Interpreter) :
    ∃ passed, (let (result, after) := x (History.next ⟨past, state⟩ entered)
      (result, after.next (leave after.now))) =
        ((y entered).1, ⟨past ++ passed, leave (y entered).2⟩) ∧
      Passes state passed (leave (y entered).2) := by
  obtain ⟨passed, same, passes⟩ := inner (past ++ [state]) entered
  refine ⟨state :: (passed ++ [(y entered).2]), ?_,
    .step before (passes.append (.single (behind _)))⟩
  simp only [History.next, same, List.append_assoc, List.cons_append, List.nil_append]

theorem nested {x : Recorded α} {y : Execution α} (inner : Records α x y) :
    Records α (Recorded.nested x) (Execution.nested y) := by
  intro past state
  by_cases room : state.depth < state.limits.evaluation
  · simp only [Recorded.nested, if_pos room, Execution.nested_of_room room]
    exact inner.around (fun after => { after with depth := after.depth - 1 })
      (.deeper room) (fun _ => .shallower) past
  · simp only [Recorded.nested, if_neg room, Execution.nested_of_full room]
    exact ⟨[], by rw [List.append_nil], .stay⟩

theorem enclosed {x : Recorded α} {y : Execution α} (inner : Records α x y) :
    Records α (Recorded.enclosed x) (Execution.enclosed y) := fun past _ =>
  inner.around (fun after => { after with scopes := after.scopes.leave })
    .enter (fun _ => .leave) past

theorem during {x : Recorded α} {y : Execution α} (site : ExecutionError.Site)
    (inner : Records α x y) :
    Records α (Recorded.during site x) (Execution.during site y) := by
  intro past state
  obtain ⟨passed, same, passes⟩ := inner past state
  refine ⟨passed, ?_, passes⟩
  simp only [Recorded.during, same]
  rfl

theorem lookup (name : String) :
    Records Value (Recorded.lookup name) (Execution.lookup name) := by
  intro past state
  have stays : (Execution.lookup name state).2 = state := by
    rw [Execution.lookup_apply]
    split <;> rfl
  refine ⟨[], ?_, by rw [stays]; exact .stay⟩
  rw [List.append_nil, stays]
  rfl

theorem assign (name : String) (value : Value) :
    Records Unit (Recorded.assign name value) (Execution.assign name value) :=
  fun _ state => ⟨[state], rfl, .single (.set name value)⟩

/-- Recording changes nothing, and no state is left out. -/
theorem relates : Machine.Relates Records where
  pure := pure
  bind := bind
  fail := fail
  nested := fun _ => nested
  enclosed := enclosed
  during := during
  lookup := lookup
  assign := assign

end Records

namespace Interpreter

/-- The states that an interpreter passes through while it answers a call. -/
def record (state : Interpreter) (call : Call) : History :=
  let run (action : Recorded Value) : History := (action ⟨[], state⟩).2
  match call with
  | .define name value => ⟨[state], state.define name value⟩
  | .run source =>
    match parseSource state.limits.parsing source with
    | .error _ => ⟨[], state⟩
    | .ok root => run (Machine.executeAll .unit root.statements)
  | .interpret root => run (Machine.executeAll .unit root.statements)
  | .execute s => run (Machine.execute s)
  | .evaluate e => run (Machine.evaluate e)

/-- A call goes step by step through the states that are recorded, to the one that it leaves. -/
theorem record_passes {limits : Limits} {state : Interpreter} (idle : Idle limits state)
    (call : Call) : (state.record call).now = state.serve call ∧
      Passes state (state.record call).past (state.serve call) := by
  have recorded {x : Recorded Value} {y : Execution Value} (records : Records Value x y) :
      (x ⟨[], state⟩).2.now = (y state).2 ∧ Passes state (x ⟨[], state⟩).2.past (y state).2 := by
    obtain ⟨passed, same, passes⟩ := records [] state
    rw [same]
    exact ⟨rfl, passes⟩
  have program (root : Stmt) : Records Value (Machine.executeAll .unit root.statements)
      (Execution.executeAll .unit root.statements) :=
    Execution.machine_executeAll .unit _ ▸ Records.relates.executeAll .unit _
  cases call with
  | define name value =>
    refine ⟨rfl, .single ?_⟩
    have set : state.Step _ := .set name value
    rwa [← ScopeChain.define_eq_set idle.outer] at set
  | run source =>
    cases parsed : parseSource state.limits.parsing source with
    | error e =>
      rw [record, serve, Interpreter.run, parsed]
      exact ⟨rfl, .stay⟩
    | ok root =>
      rw [record, serve, Interpreter.run, parsed]
      exact recorded (program root)
  | interpret root => exact recorded (program root)
  | execute s => exact recorded (Execution.machine_execute s ▸ Records.relates.execute s)
  | evaluate e => exact recorded (Execution.machine_evaluate e ▸ Records.relates.evaluate e)

/-- What every step keeps holds between the calls of a session, if it holds at the start. -/
theorem session_holds {property : Interpreter → Prop} (kept : Kept property) (limits : Limits)
    (start : property (new limits)) (calls : List Call) : property (session limits calls) := by
  have onward (calls : List Call) (state : Interpreter) (idle : Idle limits state)
      (now : property state) : property (calls.foldl serve state) := by
    induction calls generalizing state with
    | nil => exact now
    | cons call rest ih =>
      exact ih _ (idle.serve call) (((record_passes idle call).2.holds kept now).2)
  exact onward calls _ (.new limits) start

end Interpreter
end Scriptlet
