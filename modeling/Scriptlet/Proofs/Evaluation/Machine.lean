import Scriptlet.Proofs.Evaluation.Execution

/-! Programs on any machine. Running a program takes only a few operations; the same program text
runs on everything that has them. Two machines whose operations keep a relation between their
computations run every program alike, by one induction over programs for all such relations. The
relation may depend on the parts that a program has. -/
namespace Scriptlet

/-- A part of a program that takes a level of its own. -/
inductive Part where
  | expression (e : Expr)
  | statement (s : Stmt)

/-- The parts directly inside a part. -/
def Part.inner : Part → List Part
  | expression (.binary _ left right) => [expression left, expression right]
  | expression _ => []
  | statement (.expression value) => [expression value]
  | statement (.block body) => body.map statement
  | statement (.ifThen condition branch) => [expression condition, statement branch]
  | statement (.ifThenElse condition branch otherwise) =>
    [expression condition, statement branch, statement otherwise]

/-- The operations that running a program takes. A machine is told which part a level is for. -/
class Machine (m : Type → Type) [Monad m] where
  fail : ExecutionError.Cause → m α
  nested : Part → m α → m α
  enclosed : m α → m α
  during : ExecutionError.Site → m α → m α
  lookup : String → m Value
  assign : String → Value → m Unit

namespace Machine

section Programs

variable {m : Type → Type} [Monad m] [Machine m]

def ofExcept : Except ExecutionError.Cause α → m α
  | .ok result => pure result
  | .error cause => fail cause

def logicalOperand (op : Operator) : Value → m Bool
  | .boolean value => pure value
  | value => fail (.nonBooleanOperand op value)

/-- Evaluates an expression, in a level of its own. -/
def evaluate (e : Expr) : m Value := nested (.expression e) <| match e with
  | .number value => pure (.number value)
  | .string value => pure (.string value)
  | .boolean value => pure (.boolean value)
  | .identifier name => lookup name
  | .binary .or left right => do
    if ← logicalOperand .or (← evaluate left) then pure (.boolean true)
    else return .boolean (← logicalOperand .or (← evaluate right))
  | .binary .and left right => do
    if ← logicalOperand .and (← evaluate left) then
      return .boolean (← logicalOperand .and (← evaluate right))
    else pure (.boolean false)
  | .binary .assign (.identifier name) right => do
    let value ← evaluate right
    assign name value
    pure value
  | .binary .assign target _ => fail (.invalidAssignmentTarget target)
  | .binary op left right => do
    let first ← evaluate left
    let second ← evaluate right
    ofExcept (op.apply first second)

/-- The branch that the value of a condition chooses. -/
def choose (chosen other : m Value) : Value → m Value
  | .boolean true => chosen
  | .boolean false => other
  | value => fail (.nonBooleanCondition value)

mutual

/-- Executes a statement, in a level of its own. -/
def execute (s : Stmt) : m Value := nested (.statement s) <| match s with
  | .expression value => during (.expression value) (evaluate value)
  | .block body => enclosed (executeAll .unit body)
  | .ifThen condition branch =>
    during (.conditional condition) (evaluate condition >>= choose (execute branch) (pure .unit))
  | .ifThenElse condition branch otherwise =>
    during (.conditional condition)
      (evaluate condition >>= choose (execute branch) (execute otherwise))

def executeAll (last : Value) : List Stmt → m Value
  | [] => pure last
  | s :: rest => do executeAll (← execute s) rest

end

theorem evaluate_binary {op : Operator} (computes : op.Computes) (left right : Expr) :
    (evaluate (.binary op left right) : m Value) = nested (.expression (.binary op left right))
      (evaluate left >>= fun first => evaluate right >>= fun second =>
        ofExcept (op.apply first second)) := by
  obtain ⟨notOr, notAnd, notAssign⟩ := computes
  cases op <;> first | rfl | contradiction

end Programs

section Relation

variable {m n : Type → Type} [Monad m] [Machine m] [Monad n] [Machine n]

/-- A relation between the computations of two machines that their operations keep. -/
structure Relates (related : ∀ α : Type, m α → n α → Prop) : Prop where
  pure : ∀ {α : Type} (a : α), related α (pure a) (pure a)
  bind : ∀ {α β : Type} {x : m α} {y : n α} {f : α → m β} {g : α → n β},
    related α x y → (∀ a, related β (f a) (g a)) → related β (x >>= f) (y >>= g)
  fail : ∀ {α : Type} (cause : ExecutionError.Cause), related α (fail cause) (fail cause)
  nested : ∀ {α : Type} {x : m α} {y : n α} (part : Part),
    related α x y → related α (nested part x) (nested part y)
  enclosed : ∀ {α : Type} {x : m α} {y : n α},
    related α x y → related α (enclosed x) (enclosed y)
  during : ∀ {α : Type} {x : m α} {y : n α} (site : ExecutionError.Site),
    related α x y → related α (during site x) (during site y)
  lookup : ∀ name, related Value (lookup name) (lookup name)
  assign : ∀ name value, related Unit (assign name value) (assign name value)

/-- A family of relations between the computations of two machines that their operations keep as
far as the parts of an expression need them. An index admits the parts that may be run under it;
the parts inside an admitted one are run under the index inside. -/
structure RelatesExpressions {ι : Type} (admits : ι → Part → Prop) (inside : ι → ι)
    (related : ι → ∀ α : Type, m α → n α → Prop) : Prop where
  inner : ∀ {i part}, admits i part → ∀ p ∈ part.inner, admits (inside i) p
  pure : ∀ {i} {α : Type} (a : α), related i α (pure a) (pure a)
  bind : ∀ {i} {α β : Type} {x : m α} {y : n α} {f : α → m β} {g : α → n β},
    related i α x y → (∀ a, related i β (f a) (g a)) → related i β (x >>= f) (y >>= g)
  fail : ∀ {i} {α : Type} {cause : ExecutionError.Cause}, cause.OfValues →
    related i α (fail cause) (fail cause)
  nested : ∀ {i part} {α : Type} {x : m α} {y : n α}, admits i part →
    related (inside i) α x y → related i α (nested part x) (nested part y)
  lookup : ∀ {i name}, admits i (.expression (.identifier name)) →
    related (inside i) Value (lookup name) (lookup name)
  assign : ∀ {i name right} (value : Value),
    admits i (.expression (.binary .assign (.identifier name) right)) →
    related (inside i) Unit (assign name value) (assign name value)
  target : ∀ {i target right} {α : Type},
    admits i (.expression (.binary .assign target right)) → (∀ name, target ≠ .identifier name) →
    related (inside i) α (Machine.fail (.invalidAssignmentTarget target))
      (Machine.fail (.invalidAssignmentTarget target))

/-- The same for the parts of a program. -/
structure RelatesParts {ι : Type} (admits : ι → Part → Prop) (inside : ι → ι)
    (related : ι → ∀ α : Type, m α → n α → Prop) : Prop
    extends RelatesExpressions admits inside related where
  enclosed : ∀ {i} {α : Type} {x : m α} {y : n α},
    related i α x y → related i α (enclosed x) (enclosed y)
  during : ∀ {i} {α : Type} {x : m α} {y : n α} (site : ExecutionError.Site),
    related i α x y → related i α (during site x) (during site y)

namespace RelatesExpressions

variable {ι : Type} {admits : ι → Part → Prop} {inside : ι → ι}
  {related : ι → ∀ α : Type, m α → n α → Prop} {i : ι}

theorem ofExcept (relates : RelatesExpressions admits inside related)
    {result : Except ExecutionError.Cause α}
    (values : ∀ cause, result = .error cause → cause.OfValues) :
    related i α (Machine.ofExcept result) (Machine.ofExcept result) := by
  cases result with
  | ok a => exact relates.pure a
  | error cause => exact relates.fail (values cause rfl)

theorem logicalOperand (relates : RelatesExpressions admits inside related) (op : Operator)
    (value : Value) :
    related i Bool (Machine.logicalOperand op value) (Machine.logicalOperand op value) := by
  cases value with
  | boolean value => exact relates.pure value
  | number value => exact relates.fail trivial
  | string value => exact relates.fail trivial
  | unit => exact relates.fail trivial

/-- Both machines evaluate an admitted expression alike. Operands are computed with unless the
operator decides what is evaluated. -/
theorem evaluate (relates : RelatesExpressions admits inside related) (e : Expr)
    (admitted : admits i (.expression e)) :
    related i Value (Machine.evaluate e) (Machine.evaluate e) := by
  induction e generalizing i with
  | number value => exact relates.nested admitted (relates.pure _)
  | string value => exact relates.nested admitted (relates.pure _)
  | boolean value => exact relates.nested admitted (relates.pure _)
  | identifier name => exact relates.nested admitted (relates.lookup admitted)
  | binary op left right first second =>
    have inner := relates.inner admitted
    have first := first (inner _ (List.mem_cons_self ..))
    have second := second (inner _ (List.mem_cons_of_mem _ (List.mem_cons_self ..)))
    by_cases computes : op.Computes
    · rw [evaluate_binary computes, evaluate_binary computes]
      exact relates.nested admitted (relates.bind first fun _ =>
        relates.bind second fun _ => relates.ofExcept fun _ => op.apply_error)
    have operand (op : Operator) : related (inside i) Value
        (do return .boolean (← Machine.logicalOperand op (← Machine.evaluate right)))
        (do return .boolean (← Machine.logicalOperand op (← Machine.evaluate right))) :=
      relates.bind second fun value =>
        relates.bind (relates.logicalOperand op value) fun _ => relates.pure _
    cases op
    case or =>
      refine relates.nested admitted (relates.bind first fun value =>
        relates.bind (relates.logicalOperand .or value) fun holds => ?_)
      cases holds with
      | true => exact relates.pure _
      | false => exact operand .or
    case and =>
      refine relates.nested admitted (relates.bind first fun value =>
        relates.bind (relates.logicalOperand .and value) fun holds => ?_)
      cases holds with
      | true => exact operand .and
      | false => exact relates.pure _
    case assign =>
      cases left
      case identifier name =>
        exact relates.nested admitted (relates.bind second fun value =>
          relates.bind (relates.assign value admitted) fun _ => relates.pure _)
      all_goals exact relates.nested admitted (relates.target admitted nofun)
    all_goals exact absurd ⟨nofun, nofun, nofun⟩ computes

theorem choose (relates : RelatesExpressions admits inside related) {x other : m Value}
    {y other' : n Value} (taken : related i Value x y) (otherwise : related i Value other other')
    (value : Value) :
    related i Value (Machine.choose x other value) (Machine.choose y other' value) := by
  cases value with
  | boolean holds => cases holds with
    | true => exact taken
    | false => exact otherwise
  | number value => exact relates.fail trivial
  | string value => exact relates.fail trivial
  | unit => exact relates.fail trivial

end RelatesExpressions

namespace RelatesParts

variable {ι : Type} {admits : ι → Part → Prop} {inside : ι → ι}
  {related : ι → ∀ α : Type, m α → n α → Prop} {i : ι}

mutual

/-- Both machines execute an admitted statement alike. -/
theorem execute (relates : RelatesParts admits inside related) {i : ι} (s : Stmt)
    (admitted : admits i (.statement s)) :
    related i Value (Machine.execute s) (Machine.execute s) := by
  have inner := relates.inner admitted
  cases s with
  | expression value =>
    exact relates.nested admitted (relates.during _
      (relates.evaluate value (inner _ (List.mem_cons_self ..))))
  | block body =>
    exact relates.nested admitted (relates.enclosed (executeAll relates .unit body
      fun s among => inner _ (List.mem_map_of_mem among)))
  | ifThen condition branch =>
    exact relates.nested admitted (relates.during _ (relates.bind
      (relates.evaluate condition (inner _ (List.mem_cons_self ..)))
      (relates.choose (execute relates branch (inner _ (by simp [Part.inner])))
        (relates.pure _))))
  | ifThenElse condition branch otherwise =>
    exact relates.nested admitted (relates.during _ (relates.bind
      (relates.evaluate condition (inner _ (List.mem_cons_self ..)))
      (relates.choose (execute relates branch (inner _ (by simp [Part.inner])))
        (execute relates otherwise (inner _ (by simp [Part.inner]))))))

theorem executeAll (relates : RelatesParts admits inside related) {i : ι} (last : Value)
    (body : List Stmt) (admitted : ∀ s ∈ body, admits i (.statement s)) :
    related i Value (Machine.executeAll last body) (Machine.executeAll last body) := by
  cases body with
  | nil => exact relates.pure last
  | cons s rest =>
    obtain ⟨first, others⟩ := List.forall_mem_cons.mp admitted
    exact relates.bind (execute relates s first) fun value => executeAll relates value rest others

end

end RelatesParts

namespace Relates

variable {related : ∀ α : Type, m α → n α → Prop}

/-- A relation that all operations keep is kept whatever the parts are. -/
theorem parts (relates : Relates related) :
    RelatesParts (fun (_ : Unit) _ => True) id fun _ => related where
  inner := fun _ _ _ => trivial
  pure := relates.pure
  bind := relates.bind
  fail := fun _ => relates.fail _
  nested := fun _ => relates.nested _
  enclosed := relates.enclosed
  during := relates.during
  lookup := fun _ => relates.lookup _
  assign := fun value _ => relates.assign _ value
  target := fun _ _ => relates.fail _

theorem evaluate (relates : Relates related) (e : Expr) :
    related Value (Machine.evaluate e) (Machine.evaluate e) :=
  relates.parts.evaluate (i := ()) e trivial

theorem execute (relates : Relates related) (s : Stmt) :
    related Value (Machine.execute s) (Machine.execute s) :=
  relates.parts.execute (i := ()) s trivial

theorem executeAll (relates : Relates related) (last : Value) (body : List Stmt) :
    related Value (Machine.executeAll last body) (Machine.executeAll last body) :=
  relates.parts.executeAll (i := ()) last body fun _ _ => trivial

end Relates

end Relation

end Machine

namespace Execution

/-- The interpreter is a machine; what a level is for does not matter to it. -/
instance : Machine Execution where
  fail := fail
  nested _ := nested
  enclosed := enclosed
  during := during
  lookup := lookup
  assign := assign

theorem machine_ofExcept (result : Except ExecutionError.Cause α) :
    Machine.ofExcept result = ofExcept result := by
  cases result <;> rfl

theorem machine_logicalOperand (op : Operator) (value : Value) :
    Machine.logicalOperand op value = logicalOperand op value := by
  cases value <;> rfl

theorem machine_evaluate (e : Expr) : Machine.evaluate e = evaluate e := by
  induction e with
  | number value => rfl
  | string value => rfl
  | boolean value => rfl
  | identifier name => rfl
  | binary op left right first second =>
    by_cases computes : op.Computes
    · rw [Machine.evaluate_binary computes, evaluate_binary computes, first, second]
      simp only [machine_ofExcept]
      rfl
    cases op
    case or | and =>
      simp only [Machine.evaluate, evaluate, first, second, machine_logicalOperand]
      rfl
    case assign =>
      cases left <;> simp only [Machine.evaluate, evaluate, second] <;> rfl
    all_goals exact absurd ⟨nofun, nofun, nofun⟩ computes

mutual

theorem machine_execute : (s : Stmt) → Machine.execute s = execute s
  | .expression value => by
    simp only [Machine.execute, execute, machine_evaluate]
    rfl
  | .block body => by
    simp only [Machine.execute, execute, machine_executeAll]
    rfl
  | .ifThen condition branch => by
    simp only [Machine.execute, execute, machine_evaluate, machine_execute branch]
    rfl
  | .ifThenElse condition branch otherwise => by
    simp only [Machine.execute, execute, machine_evaluate, machine_execute branch,
      machine_execute otherwise]
    rfl

theorem machine_executeAll (last : Value) : (body : List Stmt) →
    Machine.executeAll last body = executeAll last body
  | [] => rfl
  | s :: rest => by
    simp only [Machine.executeAll, executeAll, machine_execute s, machine_executeAll]

end

end Execution
end Scriptlet
