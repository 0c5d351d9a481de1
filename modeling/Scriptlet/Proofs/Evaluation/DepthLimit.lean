import Mathlib.Control.Monad.Basic
import Scriptlet.Proofs.Evaluation.Failure
import Scriptlet.Proofs.Evaluation.Session

/-! What the depth limit decides. A run under a smaller limit takes the same steps as one under a
greater limit until it has no level left; so a smaller limit can cut a run short, and it changes
nothing else. A tree has as many levels at most as it is high, because every part takes one and
gives it back before the next one is run. -/
namespace Scriptlet

/-- The interpreter with another depth limit. -/
def Interpreter.under (state : Interpreter) (limit : Nat) : Interpreter :=
  { state with limits := { state.limits with evaluation := limit } }

/-- A run that failed because the depth limit was reached. -/
def Overruns (limit : Nat) (result : Except ExecutionError α) : Prop :=
  ∃ site, result = .error ⟨.depthLimit limit, site⟩

section Truncation

/-- The first computation does under one limit what the second does under another one, unless it
reaches its limit. -/
def CutsShort (limit limit' : Nat) (α : Type) (short long : Execution α) : Prop :=
  ∀ state : Interpreter, Overruns limit (short (state.under limit)).1 ∨
    ∃ (result : Except ExecutionError α) (after : Interpreter),
      short (state.under limit) = (result, after.under limit) ∧
        long (state.under limit') = (result, after.under limit')

namespace CutsShort

variable {limit limit' : Nat}

theorem pure (a : α) : CutsShort limit limit' α (Pure.pure a) (Pure.pure a) :=
  fun state => .inr ⟨.ok a, state, rfl, rfl⟩

theorem fail (cause : ExecutionError.Cause) :
    CutsShort limit limit' α (Execution.fail cause) (Execution.fail cause) :=
  fun state => .inr ⟨.error (.bare cause), state, rfl, rfl⟩

theorem bind {x y : Execution α} {f g : α → Execution β} (first : CutsShort limit limit' α x y)
    (onward : ∀ a, CutsShort limit limit' β (f a) (g a)) :
    CutsShort limit limit' β (x >>= f) (y >>= g) := by
  intro state
  rw [Execution.bind_apply, Execution.bind_apply]
  rcases first state with ⟨site, overrun⟩ | ⟨result, after, short, long⟩
  · left
    generalize x (state.under limit) = outcome at overrun ⊢
    obtain ⟨_, after⟩ := outcome
    subst overrun
    exact ⟨site, rfl⟩
  · rw [short, long]
    cases result with
    | error e => exact .inr ⟨.error e, after, rfl, rfl⟩
    | ok a => exact onward a after

/-- The longer run has room for every level that the shorter one has room for. -/
theorem nested {x y : Execution α} (smaller : limit ≤ limit')
    (inner : CutsShort limit limit' α x y) :
    CutsShort limit limit' α (Execution.nested x) (Execution.nested y) := by
  intro state
  by_cases room : (state.under limit).depth < (state.under limit).limits.evaluation
  · have also : (state.under limit').depth < (state.under limit').limits.evaluation :=
      Nat.lt_of_lt_of_le room smaller
    rw [Execution.nested_of_room room, Execution.nested_of_room also]
    rcases inner { state with depth := state.depth + 1 } with overrun | ⟨result, after, short, long⟩
    · exact .inl overrun
    · right
      refine ⟨result, { after with depth := after.depth - 1 }, ?_, ?_⟩
      · exact congrArg (fun outcome : _ × Interpreter =>
          (outcome.1, { outcome.2 with depth := outcome.2.depth - 1 })) short
      · exact congrArg (fun outcome : _ × Interpreter =>
          (outcome.1, { outcome.2 with depth := outcome.2.depth - 1 })) long
  · left
    rw [Execution.nested_of_full room]
    exact ⟨none, rfl⟩

theorem enclosed {x y : Execution α} (inner : CutsShort limit limit' α x y) :
    CutsShort limit limit' α (Execution.enclosed x) (Execution.enclosed y) := by
  intro state
  rcases inner { state with scopes := state.scopes.enter } with
    overrun | ⟨result, after, short, long⟩
  · exact .inl overrun
  · right
    refine ⟨result, { after with scopes := after.scopes.leave }, ?_, ?_⟩
    · exact congrArg (fun outcome : _ × Interpreter =>
        (outcome.1, { outcome.2 with scopes := outcome.2.scopes.leave })) short
    · exact congrArg (fun outcome : _ × Interpreter =>
        (outcome.1, { outcome.2 with scopes := outcome.2.scopes.leave })) long

theorem during {x y : Execution α} (site : ExecutionError.Site)
    (inner : CutsShort limit limit' α x y) :
    CutsShort limit limit' α (Execution.during site x) (Execution.during site y) := by
  intro state
  rcases inner state with ⟨other, overrun⟩ | ⟨result, after, short, long⟩
  · left
    change Overruns limit ((x (state.under limit)).1.mapError _)
    rw [overrun]
    cases other with
    | none => exact ⟨some site, rfl⟩
    | some inside => exact ⟨some inside, rfl⟩
  · right
    refine ⟨result.mapError (·.within site), after, ?_, ?_⟩
    · exact congrArg (Prod.map (·.mapError (·.within site)) id) short
    · exact congrArg (Prod.map (·.mapError (·.within site)) id) long

theorem lookup (name : String) :
    CutsShort limit limit' Value (Execution.lookup name) (Execution.lookup name) := by
  intro state
  have same (limit : Nat) : (state.under limit).get? name = state.get? name := rfl
  rw [Execution.lookup_apply, Execution.lookup_apply, same, same]
  cases state.get? name with
  | some value => exact .inr ⟨.ok value, state, rfl, rfl⟩
  | none => exact .inr ⟨.error (.bare (.unboundIdentifier name)), state, rfl, rfl⟩

theorem assign (name : String) (value : Value) :
    CutsShort limit limit' Unit (Execution.assign name value) (Execution.assign name value) :=
  fun state => .inr ⟨.ok (), { state with scopes := state.scopes.set name value }, rfl, rfl⟩

/-- Every operation of the interpreter is only cut short by a smaller limit. -/
theorem relates (smaller : limit ≤ limit') : Machine.Relates (CutsShort limit limit') where
  pure := pure
  bind := bind
  fail := fail
  nested := fun _ => nested smaller
  enclosed := enclosed
  during := during
  lookup := lookup
  assign := assign

theorem evaluate (smaller : limit ≤ limit') (e : Expr) :
    CutsShort limit limit' Value (Execution.evaluate e) (Execution.evaluate e) := by
  rw [← Execution.machine_evaluate]
  exact (relates smaller).evaluate e

theorem execute (smaller : limit ≤ limit') (s : Stmt) :
    CutsShort limit limit' Value (Execution.execute s) (Execution.execute s) := by
  rw [← Execution.machine_execute]
  exact (relates smaller).execute s

theorem executeAll (smaller : limit ≤ limit') (last : Value) (body : List Stmt) :
    CutsShort limit limit' Value (Execution.executeAll last body)
      (Execution.executeAll last body) := by
  rw [← Execution.machine_executeAll]
  exact (relates smaller).executeAll last body

end CutsShort

end Truncation

section Height

/-- The nodes on the longest path through an expression. -/
def Expr.height : Expr → Nat
  | binary _ left right => max left.height right.height + 1
  | _ => 1

namespace Stmt

mutual

/-- The nodes on the longest path through a statement. -/
def height : Stmt → Nat
  | ifThen condition branch => max condition.height branch.height + 1
  | ifThenElse condition branch otherwise =>
    max condition.height (max branch.height otherwise.height) + 1
  | expression value => value.height + 1
  | block body => tallest body + 1

/-- The greatest height of the statements. -/
def tallest : List Stmt → Nat
  | [] => 0
  | s :: rest => max s.height (tallest rest)

end

theorem height_le_tallest {body : List Stmt} (among : s ∈ body) : s.height ≤ tallest body := by
  induction body with
  | nil => contradiction
  | cons first rest ih =>
    rw [tallest]
    rcases List.mem_cons.mp among with rfl | among
    · exact Nat.le_max_left ..
    · exact Nat.le_trans (ih among) (Nat.le_max_right ..)

end Stmt

namespace Part

def height : Part → Nat
  | expression e => e.height
  | statement s => s.height

theorem height_pos (part : Part) : 0 < part.height := by
  cases part with
  | expression e => cases e <;> exact Nat.succ_pos _
  | statement s => cases s <;> exact Nat.succ_pos _

/-- A part is higher than the parts inside it. -/
theorem height_inner {part p : Part} (inside : p ∈ part.inner) : p.height < part.height := by
  cases part with
  | expression e =>
    cases e with
    | binary op left right =>
      simp only [inner, List.mem_cons, List.not_mem_nil, or_false] at inside
      rcases inside with rfl | rfl <;> simp only [height, Expr.height] <;> omega
    | _ => contradiction
  | statement s =>
    cases s with
    | block body =>
      obtain ⟨s, among, rfl⟩ := List.mem_map.mp inside
      exact Nat.lt_succ_of_le (Stmt.height_le_tallest among)
    | expression value =>
      rw [List.mem_singleton.mp inside]
      exact Nat.lt_succ_self _
    | ifThen condition branch =>
      simp only [inner, List.mem_cons, List.not_mem_nil, or_false] at inside
      rcases inside with rfl | rfl <;> simp only [height, Stmt.height] <;> omega
    | ifThenElse condition branch otherwise =>
      simp only [inner, List.mem_cons, List.not_mem_nil, or_false] at inside
      rcases inside with rfl | rfl | rfl <;> simp only [height, Stmt.height] <;> omega

end Part

/-- As many levels are free as the index says, and no limit is to blame. -/
theorem confines_height : Confines (fun levels part => part.height ≤ levels) (· - 1)
    (fun levels nesting => nesting.depth + levels ≤ nesting.limit)
    (fun cause => ∀ limit, cause ≠ .depthLimit limit) where
  inner := fun fits p inside =>
    Nat.le_sub_one_of_lt (Nat.lt_of_lt_of_le (Part.height_inner inside) fits)
  level := fun {levels part depth limit} fits free _ => by
    have positive := part.height_pos
    simp only at free ⊢
    omega
  full := fun {levels part depth limit} fits free full => by
    have positive := part.height_pos
    exact absurd (by simp only at free; omega) full
  values := fun {cause} values limit same => by
    subst same
    exact values
  unbound := nofun
  target := nofun

end Height

section Session

variable {limits : Limits} {state : Interpreter} {limit limit' : Nat}

/-- A call under one limit fails at this limit, or it has the result that it has under another one
and leaves the same bindings. -/
def Interpreter.OnlyCut (state : Interpreter) (limit limit' : Nat)
    (call : Interpreter → Except ExecutionError Value × Interpreter) : Prop :=
  Overruns limit (call (state.under limit)).1 ∨
    ((call (state.under limit)).1 = (call (state.under limit')).1 ∧
      (call (state.under limit)).2.scopes = (call (state.under limit')).2.scopes)

/-- A call that does not reach the limit. -/
def Interpreter.StaysWithin (state : Interpreter) (limit : Nat)
    (call : Interpreter → Except ExecutionError Value × Interpreter) : Prop :=
  ∀ other, ¬ Overruns other (call (state.under limit)).1

theorem CutsShort.onlyCut {action : Execution Value}
    (cuts : CutsShort limit limit' Value action action) (state : Interpreter) :
    state.OnlyCut limit limit' action := by
  rcases cuts state with overrun | ⟨result, after, short, long⟩
  · exact .inl overrun
  · right
    rw [short, long]
    exact ⟨rfl, rfl⟩

/-- Between calls all levels are free. -/
theorem Interpreter.Idle.staysWithin (idle : state.Idle limits) {action : Execution Value}
    {levels : Nat} (fails : FailsWith (fun nesting => nesting.depth + levels ≤ nesting.limit)
      (fun cause => ∀ limit, cause ≠ .depthLimit limit) action) (enough : levels ≤ limit) :
    state.StaysWithin limit action := by
  rintro other ⟨site, overrun⟩
  have free : (state.under limit).depth + levels ≤ limit := by
    change state.depth + levels ≤ limit
    rw [idle.depth, Nat.zero_add]
    exact enough
  exact fails.causes (state.under limit) free _ overrun other rfl

/-- At every point of a session, a smaller depth limit only cuts a call short: the call fails at the
limit, or it does what it does under a greater one. It never fails so where the limit is at least
the height of its tree, for a program that of its highest statement. -/
theorem depth_limit_only_cuts (limits : Limits) (calls : List Interpreter.Call) :
    let state := Interpreter.session limits calls
    (∀ limit limit', limit ≤ limit' →
      (∀ root, state.OnlyCut limit limit' (·.interpret root)) ∧
      (∀ s, state.OnlyCut limit limit' (·.execute s)) ∧
      ∀ e, state.OnlyCut limit limit' (·.evaluate e)) ∧
    ∀ limit,
      (∀ root, Stmt.tallest root.statements ≤ limit →
        state.StaysWithin limit (·.interpret root)) ∧
      (∀ s, s.height ≤ limit → state.StaysWithin limit (·.execute s)) ∧
      ∀ e, e.height ≤ limit → state.StaysWithin limit (·.evaluate e) := by
  intro state
  have idle := Interpreter.session_idle limits calls
  constructor
  · intro limit limit' smaller
    refine ⟨?_, ?_, ?_⟩
    · intro root
      exact (CutsShort.executeAll smaller .unit root.statements).onlyCut state
    · intro s
      exact (CutsShort.execute smaller s).onlyCut state
    · intro e
      exact (CutsShort.evaluate smaller e).onlyCut state
  · intro limit
    refine ⟨?_, ?_, ?_⟩
    · intro root fits
      have fails := confines_height.executeAll (i := Stmt.tallest root.statements) .unit
        root.statements fun s among => Stmt.height_le_tallest among
      exact idle.staysWithin fails fits
    · intro s fits
      exact idle.staysWithin (confines_height.execute (i := s.height) s (Nat.le_refl _)) fits
    · intro e fits
      exact idle.staysWithin (confines_height.evaluate (i := e.height) e (Nat.le_refl _)) fits

/-- The assignment `b = a && false`. -/
def guardedValue : Expr :=
  .binary .assign (.identifier "b") (.binary .and (.identifier "a") (.boolean false))

/-- The statement `if (a) { b = a && false; }`. -/
def guardedAssignment : Stmt := .ifThen (.identifier "a") (.block [.expression guardedValue])

/-- The name on its right side is at the end of the longest path. -/
theorem guardedAssignment_fits :
    let state := Interpreter.session {} [.define "a" (.boolean true)]
    5 ≤ 9 ∧ Overruns 5 ((state.under 5).execute guardedAssignment).1 ∧
      state.OnlyCut 5 9 (·.execute guardedAssignment) ∧
    guardedAssignment.height ≤ 6 ∧ state.StaysWithin 6 (·.execute guardedAssignment) ∧
      ((state.under 6).execute guardedAssignment).1 = .ok (.boolean false) := by
  intro state
  have smaller : 5 ≤ 9 := by decide
  have fits : guardedAssignment.height ≤ 6 := by decide
  have overrun : Overruns 5 ((state.under 5).execute guardedAssignment).1 :=
    ⟨some (.expression guardedValue), by decide +kernel⟩
  have result : ((state.under 6).execute guardedAssignment).1 = .ok (.boolean false) := by
    decide +kernel
  obtain ⟨cut, within⟩ := depth_limit_only_cuts {} [.define "a" (.boolean true)]
  exact ⟨smaller, overrun, (cut 5 9 smaller).2.1 guardedAssignment, fits,
    (within 6).2.1 guardedAssignment fits, result⟩

end Session
end Scriptlet
