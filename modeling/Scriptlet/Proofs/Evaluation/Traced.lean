import Mathlib.Control.Monad.Basic
import Mathlib.Logic.Relation
import Scriptlet.Proofs.Evaluation.Chain
import Scriptlet.Proofs.Evaluation.Machine

/-! Traced runs. A traced interpreter does what the plain one does, and knows which statements are
open: entered, in a level of their own, and not left again. It takes no notice of the statements
that errors name, but says where it stops which ones are open there. So the name in an error can be
compared with them. -/
namespace Scriptlet

/-- A statement that is being executed, with the state that it was reached in. -/
structure Frame where
  statement : Stmt
  entry : Interpreter

/-- Why a run stops, and the statements that are open there, the innermost first. -/
structure Stop where
  cause : ExecutionError.Cause
  frames : List Frame

/-- A computation that is told which statements are open around it. -/
abbrev Traced (α : Type) := ReaderT (List Frame) (ExceptT Stop (StateM Interpreter)) α

namespace Traced

/-- Does what the plain interpreter does, and opens nothing. -/
def plain (action : Execution α) : Traced α := fun frames state =>
  let (result, after) := action state
  (result.mapError fun e => ⟨e.cause, frames⟩, after)

/-- What is open inside a part. Expressions are no statements. -/
def opened (part : Part) (state : Interpreter) (frames : List Frame) : List Frame :=
  match part with
  | .expression _ => frames
  | .statement s => ⟨s, state⟩ :: frames

/-- Runs one level deeper, unless the limit is reached; then the part is not open yet. -/
def nested (part : Part) (action : Traced α) : Traced α := fun frames state =>
  if state.depth < state.limits.evaluation then
    let (result, after) := action (opened part state frames) { state with depth := state.depth + 1 }
    (result, { after with depth := after.depth - 1 })
  else (.error ⟨.depthLimit state.limits.evaluation, frames⟩, state)

def enclosed (action : Traced α) : Traced α := fun frames state =>
  let (result, after) := action frames { state with scopes := state.scopes.enter }
  (result, { after with scopes := after.scopes.leave })

instance : Machine Traced where
  fail cause := plain (Execution.fail cause)
  nested := nested
  enclosed := enclosed
  during _ action := action
  lookup name := plain (Execution.lookup name)
  assign name value := plain (Execution.assign name value)

theorem bind_apply (action : Traced α) (next : α → Traced β) (frames : List Frame)
    (state : Interpreter) : (action >>= next) frames state =
      match action frames state with
      | (.ok a, after) => next a frames after
      | (.error stop, after) => (.error stop, after) := by
  simp only [bind, ReaderT.bind, ExceptT.bind, ExceptT.mk, StateT.bind]
  generalize action frames state = outcome
  obtain ⟨result, after⟩ := outcome
  cases result <;> rfl

end Traced

/-- What an error names a statement by. Blocks are never named. -/
def Stmt.site? : Stmt → Option ExecutionError.Site
  | .expression value => some (.expression value)
  | .block _ => none
  | .ifThen condition _ | .ifThenElse condition _ _ => some (.conditional condition)

/-- Executes a computation as the inner part of a statement, which is named if it can be. -/
def Stmt.naming (s : Stmt) (action : Execution α) : Execution α :=
  match s.site? with
  | some site => Execution.during site action
  | none => action

theorem Stmt.naming_apply (s : Stmt) (action : Execution α) (state : Interpreter) :
    s.naming action state = ((action state).1.mapError fun e =>
      match s.site? with
      | some site => e.within site
      | none => e, (action state).2) := by
  unfold naming
  cases s.site? with
  | some site => rfl
  | none =>
    change action state = _
    generalize action state = outcome
    obtain ⟨result, after⟩ := outcome
    cases result <;> rfl

/-- The head of a statement as source text. A block has none. -/
def Stmt.headline? : Stmt → Option String
  | .expression value => some (value.render ++ ";")
  | .block _ => none
  | .ifThen condition _ | .ifThenElse condition _ _ => some ("if (" ++ condition.render ++ ")")

theorem Stmt.headline?_eq (s : Stmt) : s.headline? = s.site?.map ExecutionError.Site.render := by
  cases s <;> rfl

theorem Stmt.site?_eq_none {s : Stmt} (unnamed : s.site? = none) : ∃ body, s = .block body := by
  cases s with
  | block body => exact ⟨body, rfl⟩
  | _ => cases unnamed

namespace Stop

/-- The stop, seen from outside further open statements. -/
def under (frames : List Frame) (stop : Stop) : Stop := { stop with frames := stop.frames ++ frames }

/-- The error that names the innermost open statement that can be named. -/
def error (stop : Stop) : ExecutionError :=
  ⟨stop.cause, stop.frames.findSome? (·.statement.site?)⟩

theorem under_nil (stop : Stop) : stop.under [] = stop := by
  rw [under, List.append_nil]

theorem under_under (stop : Stop) (inner outer : List Frame) :
    (stop.under inner).under outer = stop.under (inner ++ outer) := by
  rw [under, under, under, List.append_assoc]

/-- One more open statement is named unless there is one inside it. -/
theorem error_under (stop : Stop) (frame : Frame) : (stop.under [frame]).error =
    match frame.statement.site? with
    | some site => stop.error.within site
    | none => stop.error := by
  simp only [error, under, List.findSome?_append, List.findSome?_cons, List.findSome?_nil]
  cases stop.frames.findSome? (·.statement.site?) <;> cases frame.statement.site? <;> rfl

end Stop

/-- A part is in a program: it is the whole, or directly inside a part that is in it. -/
def Part.Holds (whole part : Part) : Prop :=
  Relation.ReflTransGen (fun outer p => p ∈ outer.inner) whole part

/-- A statement of a program which was entered, and which fails with an error when it is executed
again from the state that it was reached in. -/
structure Frame.Open (whole : Part) (frame : Frame) (e : ExecutionError) : Prop where
  held : whole.Holds (.statement frame.statement)
  entered : frame.entry.depth < frame.entry.limits.evaluation
  fails : (frame.entry.execute frame.statement).1 = .error e

/-- Every open statement fails again for the same reason and names what was open in it. -/
def Stop.Replays (whole : Part) (stop : Stop) : Prop :=
  ∀ inside frame outside, stop.frames = inside ++ frame :: outside →
    frame.Open whole (Stop.error ⟨stop.cause, inside ++ [frame]⟩)

theorem Stop.Replays.bare {whole : Part} (cause : ExecutionError.Cause) :
    (⟨cause, []⟩ : Stop).Replays whole :=
  fun _ _ _ split => absurd split (List.append_ne_nil_of_right_ne_nil _ (List.cons_ne_nil _ _)).symm

theorem Stop.Replays.under {whole : Part} {stop : Stop} {frame : Frame}
    (replays : stop.Replays whole) (outermost : frame.Open whole (stop.under [frame]).error) :
    (stop.under [frame]).Replays whole := by
  intro inside other outside split
  change stop.frames ++ [frame] = inside ++ other :: outside at split
  -- The statement is the outermost one, or it was among the open ones before.
  rcases List.eq_nil_or_concat outside with rfl | ⟨between, last, rfl⟩
  · obtain ⟨rfl, last⟩ := List.append_inj' split rfl
    cases last
    exact outermost
  · rw [List.concat_eq_append, ← List.cons_append, ← List.append_assoc] at split
    obtain ⟨frames, _⟩ := List.append_inj' split rfl
    exact replays inside other between frames

/-- Two outcomes are the same, but that a traced one stops where a plain one has an error. It stops
with what was opened inside the given statements, and that explains the error. -/
def Explained (known : Stop → Prop) (frames : List Frame)
    (traced : Except Stop α × Interpreter) (plain : Except ExecutionError α × Interpreter) : Prop :=
  ∃ (result : Except Stop α) (after : Interpreter),
    traced = (result.mapError (·.under frames), after) ∧
      plain = (result.mapError Stop.error, after) ∧ ∀ stop, result = .error stop → known stop

/-- A traced computation does what a plain one does, whatever is open around it. -/
def Explains (known : Stop → Prop) (α : Type) (traced : Traced α) (action : Execution α) : Prop :=
  ∀ (frames : List Frame) (state : Interpreter),
    Explained known frames (traced frames state) (action state)

/-- What fails by itself has opened nothing. -/
theorem Explained.raised {known : Stop → Prop} {cause : ExecutionError.Cause}
    (raised : known ⟨cause, []⟩) (frames : List Frame) (state : Interpreter) :
    Explained (α := α) known frames (.error ⟨cause, frames⟩, state)
      (.error (.bare cause), state) := by
  refine ⟨.error ⟨cause, []⟩, state, rfl, rfl, ?_⟩
  rintro _ ⟨⟩
  exact raised

namespace Explains

variable {known : Stop → Prop}

theorem pure (a : α) : Explains known α (Pure.pure a) (Pure.pure a) :=
  fun _ state => ⟨.ok a, state, rfl, rfl, nofun⟩

theorem fail {cause : ExecutionError.Cause} (raised : known ⟨cause, []⟩) :
    Explains known α (Machine.fail cause) (Machine.fail cause) :=
  fun frames state => .raised raised frames state

theorem bind {x : Traced α} {y : Execution α} {f : α → Traced β} {g : α → Execution β}
    (first : Explains known α x y) (next : ∀ a, Explains known β (f a) (g a)) :
    Explains known β (x >>= f) (y >>= g) := by
  intro frames state
  obtain ⟨result, between, traced, plain, stops⟩ := first frames state
  rw [Traced.bind_apply, Execution.bind_apply, traced, plain]
  cases result with
  | ok a => exact next a frames between
  | error stop =>
    refine ⟨.error stop, between, rfl, rfl, ?_⟩
    rintro _ ⟨⟩
    exact stops stop rfl

theorem enclosed {x : Traced α} {y : Execution α} (inner : Explains known α x y) :
    Explains known α (Traced.enclosed x) (Execution.enclosed y) := by
  intro frames state
  obtain ⟨result, after, traced, plain, stops⟩ :=
    inner frames { state with scopes := state.scopes.enter }
  refine ⟨result, { after with scopes := after.scopes.leave }, ?_, ?_, stops⟩
  · simp only [Traced.enclosed, traced]
  · simp only [Execution.enclosed, plain]

theorem lookup (raised : ∀ cause, known ⟨cause, []⟩) (name : String) :
    Explains known Value (Machine.lookup name) (Machine.lookup name) := by
  intro frames state
  change Explained known frames (Traced.plain (Execution.lookup name) frames state)
    (Execution.lookup name state)
  rw [Traced.plain, Execution.lookup_apply]
  cases state.get? name with
  | some value => exact ⟨.ok value, state, rfl, rfl, nofun⟩
  | none => exact .raised (raised _) frames state

theorem assign (name : String) (value : Value) :
    Explains known Unit (Machine.assign name value) (Machine.assign name value) :=
  fun _ state => ⟨.ok (), { state with scopes := state.scopes.set name value }, rfl, rfl, nofun⟩

/-- An expression opens no statement. -/
theorem expression {x : Traced α} {y : Execution α} (raised : ∀ cause, known ⟨cause, []⟩)
    (e : Expr) (inner : Explains known α x y) :
    Explains known α (Traced.nested (.expression e) x) (Execution.nested y) := by
  intro frames state
  by_cases room : state.depth < state.limits.evaluation
  · obtain ⟨result, after, traced, plain, stops⟩ :=
      inner frames { state with depth := state.depth + 1 }
    refine ⟨result, { after with depth := after.depth - 1 }, ?_, ?_, stops⟩
    · simp only [Traced.nested, if_pos room, Traced.opened, traced]
    · simp only [Execution.nested_of_room room, plain]
  · rw [Traced.nested, if_neg room, Execution.nested_of_full room]
    exact .raised (raised _) frames state

/-- The operations that an expression takes explain every error that they raise. -/
theorem relates (raised : ∀ cause, known ⟨cause, []⟩) :
    Machine.RelatesExpressions (fun (_ : Unit) part => ∃ e, part = .expression e) id
      fun _ => Explains known where
  inner := by
    rintro _ _ ⟨e, rfl⟩ p inside
    cases e with
    | binary op left right =>
      rcases List.mem_cons.mp inside with rfl | inside
      · exact ⟨left, rfl⟩
      · exact ⟨right, List.mem_singleton.mp inside⟩
    | _ => contradiction
  pure := pure
  bind := bind
  fail := fun _ => fail (raised _)
  nested := by
    rintro _ _ _ _ _ ⟨e, rfl⟩
    exact expression raised e
  lookup := fun _ => lookup raised _
  assign := fun value _ => assign _ value
  target := fun _ _ => fail (raised _)

theorem evaluate (raised : ∀ cause, known ⟨cause, []⟩) (e : Expr) :
    Explains known Value (Machine.evaluate e) (Execution.evaluate e) := by
  rw [← Execution.machine_evaluate]
  exact (relates raised).evaluate (i := ()) e ⟨e, rfl⟩

/-- A statement is open inside. Where something fails there, the statement fails with it. -/
theorem statement {whole : Part} {s : Stmt} {x : Traced Value} {y : Execution Value}
    (held : whole.Holds (.statement s)) (level : Execution.execute s = Execution.nested (s.naming y))
    (inner : Explains (Stop.Replays whole) Value x y) :
    Explains (Stop.Replays whole) Value (Traced.nested (.statement s) x) (Execution.execute s) := by
  intro frames state
  by_cases room : state.depth < state.limits.evaluation
  · obtain ⟨result, after, traced, plain, stops⟩ :=
      inner (⟨s, state⟩ :: frames) { state with depth := state.depth + 1 }
    -- The frame of the statement stands behind those in it, so it is named when they are not.
    have executed : Execution.execute s state =
        ((result.mapError (·.under [⟨s, state⟩])).mapError Stop.error,
          { after with depth := after.depth - 1 }) := by
      rw [level, Execution.nested_of_room room]
      simp only [Stmt.naming_apply, plain]
      cases result with
      | ok value => rfl
      | error stop =>
        exact congrArg (fun e => (Except.error e, _)) (stop.error_under ⟨s, state⟩).symm
    refine ⟨_, _, ?_, executed, ?_⟩
    · simp only [Traced.nested, if_pos room, Traced.opened, traced]
      cases result with
      | ok value => rfl
      | error stop =>
        exact congrArg (fun stop => (Except.error stop, _))
          (stop.under_under [⟨s, state⟩] frames).symm
    · intro stop failed
      cases result with
      | ok value => cases failed
      | error stop =>
        cases failed
        exact (stops stop rfl).under ⟨held, room, congrArg Prod.fst executed⟩
  · rw [level, Traced.nested, if_neg room, Execution.nested_of_full room]
    exact .raised (.bare _) frames state

variable {whole : Part}

mutual

/-- A statement of a program is explained by what is open in it. -/
theorem execute (s : Stmt) (held : whole.Holds (.statement s)) :
    Explains (Stop.Replays whole) Value (Machine.execute s) (Execution.execute s) := by
  have inside {branch : Stmt} (among : .statement branch ∈ (Part.statement s).inner) :
      whole.Holds (.statement branch) := held.tail among
  have bare (cause : ExecutionError.Cause) : Stop.Replays whole ⟨cause, []⟩ := .bare cause
  cases s with
  | expression value => exact statement held rfl (evaluate bare value)
  | block body =>
    exact statement held rfl (enclosed (executeAll .unit body
      fun s among => inside (List.mem_map_of_mem among)))
  | ifThen condition branch =>
    exact statement held rfl (bind (evaluate bare condition) ((relates bare).choose (i := ())
      (execute branch (inside (by simp [Part.inner]))) (pure _)))
  | ifThenElse condition branch otherwise =>
    exact statement held rfl (bind (evaluate bare condition) ((relates bare).choose (i := ())
      (execute branch (inside (by simp [Part.inner])))
      (execute otherwise (inside (by simp [Part.inner])))))

theorem executeAll (last : Value) (body : List Stmt)
    (held : ∀ s ∈ body, whole.Holds (.statement s)) :
    Explains (Stop.Replays whole) Value (Machine.executeAll last body)
      (Execution.executeAll last body) := by
  cases body with
  | nil => exact pure last
  | cons s rest =>
    obtain ⟨first, others⟩ := List.forall_mem_cons.mp held
    exact bind (execute s first) fun value => executeAll value rest others

end

end Explains

namespace Stop

variable {root : Stmt} {stop : Stop} {e : ExecutionError} {text : String}

/-- The statement that a text names is open at a stop, as the innermost one but for blocks, and
fails with the same error when it is executed again from there. -/
def Names (root : Stmt) (stop : Stop) (e : ExecutionError) (text : String) : Prop :=
  stop.cause = e.cause ∧ ∃ inside frame outside, stop.frames = inside ++ frame :: outside ∧
    (∀ inner ∈ inside, ∃ body, inner.statement = .block body) ∧
      frame.statement.headline? = some text ∧ frame.Open (.statement root) e

theorem Replays.names (replays : stop.Replays (.statement root))
    (named : stop.error.site.map ExecutionError.Site.render = some text) :
    stop.Names root stop.error text := by
  obtain ⟨site, found, rendered⟩ := Option.map_eq_some_iff.mp named
  obtain ⟨inside, frame, outside, split, heads, before⟩ := List.findSome?_eq_some_iff.mp found
  have same : Stop.error ⟨stop.cause, inside ++ [frame]⟩ = stop.error := by
    simp only [error, ExecutionError.mk.injEq, true_and]
    rw [split, List.findSome?_append, List.findSome?_append, List.findSome?_cons,
      List.findSome?_cons, heads]
  refine ⟨rfl, inside, frame, outside, split, ?_, ?_, same ▸ replays inside frame outside split⟩
  · exact fun inner among => Stmt.site?_eq_none (before inner among)
  · rw [Stmt.headline?_eq, heads]
    exact congrArg some rendered

end Stop

namespace Explains

variable {root : Stmt} {x : Traced Value} {y : Execution Value} {e : ExecutionError} {text : String}

theorem names (explains : Explains (Stop.Replays (.statement root)) Value x y) (state : Interpreter)
    (failed : (y state).1 = .error e)
    (named : e.site.map ExecutionError.Site.render = some text) :
    ∃ stop, x [] state = (.error stop, (y state).2) ∧ stop.Names root e text := by
  obtain ⟨result, after, traced, plain, stops⟩ := explains [] state
  rw [plain] at failed ⊢
  cases result with
  | ok value => cases failed
  | error stop =>
    cases failed
    refine ⟨stop, ?_, (stops stop rfl).names named⟩
    rw [traced]
    exact congrArg (fun stop => (Except.error stop, after)) stop.under_nil

end Explains

namespace Interpreter

/-- A traced run of a program; nothing is open before it. -/
def traceProgram (state : Interpreter) (root : Stmt) : Except Stop Value × Interpreter :=
  (Machine.executeAll .unit root.statements : Traced Value) [] state

/-- A traced run of a statement; nothing is open before it. -/
def traceStatement (state : Interpreter) (s : Stmt) : Except Stop Value × Interpreter :=
  (Machine.execute s : Traced Value) [] state

end Interpreter

theorem Stmt.holds_statements (root : Stmt) :
    ∀ s ∈ root.statements, (Part.statement root).Holds (.statement s) := by
  intro s among
  cases root with
  | block body => exact .single (List.mem_map_of_mem among)
  | _ =>
    obtain rfl := List.mem_singleton.mp among
    exact .refl

/-- An error names the statement that failed. If a program or a statement fails, in whatever state,
and the error names a statement by its text, the traced run stops with the same cause and in the
same state. There the innermost open statement, but for blocks, is a part of the tree that has this
text as its head. It was entered, and it fails with the same error when it is executed again from
the state that it was reached in. -/
theorem failure_names_innermost (state : Interpreter) (root : Stmt) {e : ExecutionError}
    {text : String} (named : e.site.map ExecutionError.Site.render = some text) :
    ((state.interpret root).1 = .error e → ∃ stop,
      state.traceProgram root = (.error stop, (state.interpret root).2) ∧
        stop.Names root e text) ∧
    ((state.execute root).1 = .error e → ∃ stop,
      state.traceStatement root = (.error stop, (state.execute root).2) ∧
        stop.Names root e text) :=
  ⟨fun failed => (Explains.executeAll .unit _ root.holds_statements).names state failed named,
    fun failed => (Explains.execute root .refl).names state failed named⟩

/-- The program `a = true; if (a) { a = false; { { { a; } } } }`. -/
def resetFlag : Stmt :=
  .block [.expression (.binary .assign (.identifier "a") (.boolean true)),
    .ifThen (.identifier "a")
      (.block [.expression (.binary .assign (.identifier "a") (.boolean false)),
        .block [.block [.block [.expression (.identifier "a")]]]])]

/-- No level is left for the innermost statement, so that the conditional is named, which would not
choose its branch any more with the bindings that there are by then. -/
theorem resetFlag_names_conditional :
    let state := Interpreter.new { evaluation := 5 }
    let e : ExecutionError := ⟨.depthLimit 5, some (.conditional (.identifier "a"))⟩
    e.site.map ExecutionError.Site.render = some "if (a)" ∧
      (state.interpret resetFlag).1 = .error e ∧
      (state.interpret resetFlag).2.get? "a" = some (.boolean false) ∧
      ∃ stop, state.traceProgram resetFlag = (.error stop, (state.interpret resetFlag).2) ∧
        stop.Names resetFlag e "if (a)" := by
  intro state e
  have named : e.site.map ExecutionError.Site.render = some "if (a)" := by decide
  have failed : (state.interpret resetFlag).1 = .error e := by decide +kernel
  exact ⟨named, failed, by decide +kernel, (failure_names_innermost state resetFlag named).1 failed⟩

end Scriptlet
