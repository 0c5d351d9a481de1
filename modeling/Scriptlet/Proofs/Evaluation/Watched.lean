import Scriptlet.Proofs.Evaluation.Invariant
import Scriptlet.Proofs.Evaluation.Machine
import Scriptlet.Proofs.Evaluation.Session

/-! Watched runs. A watched interpreter does what the plain one does, and notes every level that it
enters, with the state in which it came and the one in which it left. So what holds of every note
holds at every point of every run, whichever of its parts fail. -/
namespace Scriptlet

/-- One statement or expression of a run: the state that it was entered in and the one that it
returned. If there was room for its level, the states in between: with the level just counted, and
just before it was taken back. -/
structure Visit where
  part : Part
  entry : Interpreter
  counted : Option (Interpreter × Interpreter)
  exit : Interpreter

/-- An interpreter with what has been noted, in the order in which levels were left. -/
structure Watch where
  state : Interpreter
  visits : List Visit

/-- A computation that notes the levels that it enters. -/
abbrev Watched (α : Type) := ExceptT ExecutionError (StateM Watch) α

namespace Watched

/-- Notes nothing. -/
def plain (action : Execution α) : Watched α := fun watch =>
  let (result, after) := action watch.state
  (result, { watch with state := after })

/-- Runs one level deeper, unless the limit is reached, and notes it either way. -/
def nested (part : Part) (action : Watched α) : Watched α := fun ⟨state, visits⟩ =>
  if state.depth < state.limits.evaluation then
    let first := { state with depth := state.depth + 1 }
    let (result, ⟨last, inner⟩) := action ⟨first, []⟩
    let exit := { last with depth := last.depth - 1 }
    (result, ⟨exit, visits ++ (inner ++ [⟨part, state, some (first, last), exit⟩])⟩)
  else
    (.error (.bare (.depthLimit state.limits.evaluation)),
      ⟨state, visits ++ [⟨part, state, none, state⟩]⟩)

def enclosed (action : Watched α) : Watched α := fun ⟨state, visits⟩ =>
  let (result, ⟨after, inner⟩) := action ⟨{ state with scopes := state.scopes.enter }, visits⟩
  (result, ⟨{ after with scopes := after.scopes.leave }, inner⟩)

def during (site : ExecutionError.Site) (action : Watched α) : Watched α := fun watch =>
  let (result, after) := action watch
  (result.mapError (·.within site), after)

instance : Machine Watched where
  fail cause := plain (Execution.fail cause)
  nested := nested
  enclosed := enclosed
  during := during
  lookup name := plain (Execution.lookup name)
  assign name value := plain (Execution.assign name value)

/-- A level is noted when it is left, after the levels in it. -/
theorem nested_notes (part : Part) (action : Watched α) (state : Interpreter)
    (visits : List Visit) : ∃ inner counted exit, (nested part action ⟨state, visits⟩).2 =
      ⟨exit, visits ++ (inner ++ [⟨part, state, counted, exit⟩])⟩ := by
  by_cases room : state.depth < state.limits.evaluation
  · simp only [nested, if_pos room]
    exact ⟨_, _, _, rfl⟩
  · simp only [nested, if_neg room]
    exact ⟨[], _, _, rfl⟩

end Watched

/-- A level comes back to the state that it was entered in, but for bindings. Its depth counts it
and no more than that, up to the limit; and there is a level to take back at its end. -/
structure Visit.Balanced (visit : Visit) : Prop where
  returns : visit.entry.Returns visit.exit
  bounded : visit.entry.depth ≤ visit.entry.limits.evaluation
  counted : ∀ first last, visit.counted = some (first, last) →
    first.depth = visit.entry.depth + 1 ∧ first.depth ≤ visit.entry.limits.evaluation ∧
      last.depth = visit.exit.depth + 1

/-- A watched computation does what a plain one does, and notes balanced levels only. -/
def Watches (α : Type) (watched : Watched α) (action : Execution α) : Prop :=
  ∀ (state : Interpreter) (visits : List Visit), state.depth ≤ state.limits.evaluation →
    ∃ more, watched ⟨state, visits⟩ = ((action state).1, ⟨(action state).2, visits ++ more⟩) ∧
      state.Returns (action state).2 ∧ ∀ visit ∈ more, visit.Balanced

namespace Watches

theorem plain {action : Execution α} (returns : Keeps Interpreter.Returns action) :
    Watches α (Watched.plain action) action :=
  fun state visits _ => ⟨[], by rw [List.append_nil]; rfl, returns state, List.forall_mem_nil _⟩

theorem bind {x : Watched α} {y : Execution α} {f : α → Watched β} {g : α → Execution β}
    (first : Watches α x y) (next : ∀ a, Watches β (f a) (g a)) :
    Watches β (x >>= f) (y >>= g) := by
  intro state visits bounded
  obtain ⟨more, same, returns, balanced⟩ := first state visits bounded
  rw [Execution.bind_apply, same, Execution.bind_apply]
  generalize y state = outcome at returns ⊢
  obtain ⟨result, between⟩ := outcome
  cases result with
  | error e => exact ⟨more, rfl, returns, balanced⟩
  | ok a =>
    have still : between.depth ≤ between.limits.evaluation := by
      rw [returns.depth, returns.limits]
      exact bounded
    obtain ⟨rest, same', onward, balanced'⟩ := next a between (visits ++ more) still
    refine ⟨more ++ rest, ?_, Interpreter.returns_composes.trans returns onward, ?_⟩
    · rw [← List.append_assoc]
      exact same'
    · intro visit among
      exact (List.mem_append.mp among).elim (balanced visit) (balanced' visit)

theorem nested {x : Watched α} {y : Execution α} (part : Part) (inner : Watches α x y) :
    Watches α (Watched.nested part x) (Execution.nested y) := by
  intro state visits bounded
  by_cases room : state.depth < state.limits.evaluation
  · obtain ⟨more, same, returns, balanced⟩ :=
      inner { state with depth := state.depth + 1 } [] room
    rw [List.nil_append] at same
    simp only [Watched.nested, if_pos room, Execution.nested_of_room room, same]
    generalize y _ = outcome at returns ⊢
    obtain ⟨result, last⟩ := outcome
    have leaves := Interpreter.returns_composes.nested room returns
    refine ⟨more ++ [_], rfl, leaves, ?_⟩
    intro visit among
    rcases List.mem_append.mp among with among | final
    · exact balanced visit among
    · obtain rfl := List.mem_singleton.mp final
      refine ⟨leaves, bounded, ?_⟩
      rintro _ _ ⟨⟩
      have depth : last.depth = state.depth + 1 := returns.depth
      exact ⟨rfl, room, by rw [depth]; rfl⟩
  · simp only [Watched.nested, if_neg room, Execution.nested_of_full room]
    have stays := Interpreter.returns_composes.refl state
    refine ⟨[_], rfl, stays, ?_⟩
    intro visit among
    obtain rfl := List.mem_singleton.mp among
    exact ⟨stays, bounded, nofun⟩

theorem enclosed {x : Watched α} {y : Execution α} (inner : Watches α x y) :
    Watches α (Watched.enclosed x) (Execution.enclosed y) := by
  intro state visits bounded
  obtain ⟨more, same, returns, balanced⟩ :=
    inner { state with scopes := state.scopes.enter } visits bounded
  refine ⟨more, ?_, Interpreter.returns_composes.enclosed returns, balanced⟩
  simp only [Watched.enclosed, same]
  rfl

theorem during {x : Watched α} {y : Execution α} (site : ExecutionError.Site)
    (inner : Watches α x y) :
    Watches α (Watched.during site x) (Execution.during site y) := by
  intro state visits bounded
  obtain ⟨more, same, returns, balanced⟩ := inner state visits bounded
  refine ⟨more, ?_, returns, balanced⟩
  simp only [Watched.during, same]
  rfl

/-- Watching changes nothing, and everything that is noted is balanced. -/
theorem relates : Machine.Relates Watches where
  pure := fun a state visits _ => ⟨[], by rw [List.append_nil]; rfl,
    Interpreter.returns_composes.pure a state, List.forall_mem_nil _⟩
  bind := bind
  fail := fun cause => plain (Interpreter.returns_composes.fail cause)
  nested := nested
  enclosed := enclosed
  during := during
  lookup := fun name => plain (Interpreter.returns_composes.lookup name)
  assign := fun name value => plain (Interpreter.returns_composes.set name value)

end Watches

namespace Part

/-- Runs a part of a program. -/
def run : Part → Execution Value
  | .expression e => Execution.evaluate e
  | .statement s => Execution.execute s

def watched : Part → Watched Value
  | .expression e => Machine.evaluate e
  | .statement s => Machine.execute s

theorem watches (part : Part) : Watches Value part.watched part.run := by
  cases part with
  | expression e =>
    rw [run, ← Execution.machine_evaluate]
    exact Watches.relates.evaluate e
  | statement s =>
    rw [run, ← Execution.machine_execute]
    exact Watches.relates.execute s

/-- A part comes back to the state that it was entered in, but for bindings. -/
theorem returns (part : Part) (state : Interpreter) : state.Returns (part.run state).2 := by
  cases part with
  | expression e => exact Interpreter.returns_composes.evaluate e state
  | statement s => exact Interpreter.returns_composes.execute s state

/-- A part runs in a level of its own. -/
theorem watched_nested (part : Part) : ∃ action, part.watched = Watched.nested part action := by
  cases part with
  | expression e => exact ⟨_, Machine.evaluate.eq_def e⟩
  | statement s => exact ⟨_, Machine.execute.eq_def s⟩

/-- Every part that is run is noted, after the parts that were run in it. -/
theorem noted (part : Part) {state : Interpreter}
    (bounded : state.depth ≤ state.limits.evaluation) (visits : List Visit) :
    ∃ inner counted, part.watched ⟨state, visits⟩ = ((part.run state).1, ⟨(part.run state).2,
      visits ++ (inner ++ [⟨part, state, counted, (part.run state).2⟩])⟩) := by
  obtain ⟨more, same, _, _⟩ := part.watches state visits bounded
  obtain ⟨action, level⟩ := part.watched_nested
  obtain ⟨inner, counted, exit, notes⟩ := Watched.nested_notes part action state visits
  rw [← level, same] at notes
  obtain ⟨rfl, noted⟩ := Watch.mk.inj notes
  exact ⟨inner, counted, by rw [same, noted]⟩

end Part

namespace Interpreter

/-- What is noted while an interpreter answers a call, with the interpreter that the call leaves. -/
def watch (state : Interpreter) (call : Call) : Watch :=
  let program (root : Stmt) : Watched Value := Machine.executeAll .unit root.statements
  match call with
  | .define name value => ⟨state.define name value, []⟩
  | .run source =>
    match parseSource state.limits.parsing source with
    | .error _ => ⟨state, []⟩
    | .ok root => (program root ⟨state, []⟩).2
  | .interpret root => (program root ⟨state, []⟩).2
  | .execute s => ((Part.statement s).watched ⟨state, []⟩).2
  | .evaluate e => ((Part.expression e).watched ⟨state, []⟩).2

/-- Watching a call changes nothing, and everything that is noted is balanced. -/
theorem watch_serve {limits : Limits} {state : Interpreter} (idle : Idle limits state)
    (call : Call) : (state.watch call).state = state.serve call ∧
      ∀ visit ∈ (state.watch call).visits, visit.Balanced := by
  have noted {x : Watched Value} {y : Execution Value} (watches : Watches Value x y) :
      (x ⟨state, []⟩).2.state = (y state).2 ∧
        ∀ visit ∈ (x ⟨state, []⟩).2.visits, visit.Balanced := by
    obtain ⟨more, same, _, balanced⟩ := watches state [] (idle.depth ▸ Nat.zero_le _)
    rw [same]
    exact ⟨rfl, balanced⟩
  have program (root : Stmt) : Watches Value (Machine.executeAll .unit root.statements)
      (Execution.executeAll .unit root.statements) :=
    Execution.machine_executeAll .unit _ ▸ Watches.relates.executeAll .unit _
  cases call with
  | define name value => exact ⟨rfl, List.forall_mem_nil _⟩
  | run source =>
    cases parsed : parseSource state.limits.parsing source with
    | error e =>
      rw [watch, Interpreter.serve, Interpreter.run, parsed]
      exact ⟨rfl, List.forall_mem_nil _⟩
    | ok root =>
      rw [watch, Interpreter.serve, Interpreter.run, parsed]
      exact noted (program root)
  | interpret root => exact noted (program root)
  | execute s => exact noted (Part.statement s).watches
  | evaluate e => exact noted (Part.expression e).watches

end Interpreter

/-- Every call leaves an interpreter ready for the next one. Between calls nothing is being
executed and the global scope is the only one, so that names are defined there. Every statement and
every expression comes back to the depth and the scope that it was entered in, however it ends. In
all calls of a session, with every statement and expression in them, the depth counts the levels
that are open, up to the limit. -/
theorem session_balanced (limits : Limits) (calls : List Interpreter.Call) :
    let state := Interpreter.session limits calls
    state.Idle limits ∧
    (∀ name value, (state.define name value).Idle limits ∧
      (state.define name value).globals = state.globals.insert name value) ∧
    (∀ (part : Part) (before : Interpreter), before.Returns (part.run before).2) ∧
    (∀ call, (state.watch call).state = state.serve call ∧
      ∀ visit ∈ (state.watch call).visits, visit.Balanced) ∧
    ∀ (part : Part) (before : Interpreter) (visits : List Visit),
      before.depth ≤ before.limits.evaluation → ∃ inner counted,
        part.watched ⟨before, visits⟩ = ((part.run before).1, ⟨(part.run before).2,
          visits ++ (inner ++ [⟨part, before, counted, (part.run before).2⟩])⟩) := by
  intro state
  have idle := Interpreter.session_idle limits calls
  exact ⟨idle, fun name value => ⟨idle.serve (.define name value), rfl⟩, Part.returns,
    Interpreter.watch_serve idle, fun part before visits bounded => part.noted bounded visits⟩

end Scriptlet
