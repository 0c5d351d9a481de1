import Scriptlet.Proofs.Evaluation.Chain
import Scriptlet.Proofs.Evaluation.Machine

/-! What programs mean, without scopes: every name is kept in one store. A block runs on the store
that it finds and forgets, on the way out, the names that were not bound on the way in. Everything
else is as it is for the interpreter: the store is a machine, and runs what all machines run. -/
namespace Scriptlet

namespace Scope

/-- The bindings of the names that are bound in another scope too. -/
def keep (scope before : Scope) : Scope :=
  ⟨scope.bindings.filter fun binding => before.binds binding.1⟩

theorem get?_keep (scope before : Scope) (name : String) :
    (scope.keep before).get? name = if before.binds name then scope.get? name else none := by
  obtain ⟨bindings⟩ := scope
  simp only [keep, get?]
  induction bindings with
  | nil => simp
  | cons binding rest ih =>
    obtain ⟨bound, value⟩ := binding
    by_cases same : name = bound
    · subst same
      cases kept : before.binds name <;> simp [kept, ih]
    · cases kept : before.binds bound <;>
        simp [kept, List.lookup_cons, beq_false_of_ne same, ih]

end Scope

/-- How many statements and expressions are being executed around another one, and how many there
may be. -/
structure Nesting where
  depth : Nat
  limit : Nat

/-- A computation that can fail and works on one store either way. -/
abbrev FlatExecution (α : Type) := ReaderT Nesting (ExceptT ExecutionError (StateM Scope)) α

namespace FlatExecution

def fail (cause : ExecutionError.Cause) : FlatExecution α := throw (.bare cause)

/-- Runs one level deeper, unless the limit is reached. -/
def nested (action : FlatExecution α) : FlatExecution α := fun nesting =>
  if nesting.depth < nesting.limit then action { nesting with depth := nesting.depth + 1 }
  else throw (.bare (.depthLimit nesting.limit))

/-- Runs a block, and forgets the names that were not bound before it, also when it fails. -/
def enclosed (action : FlatExecution α) : FlatExecution α := fun nesting before =>
  let (result, after) := action nesting before
  (result, after.keep before)

/-- Runs as a part of a statement, which is named if it fails in no inner one. -/
def during (site : ExecutionError.Site) (action : FlatExecution α) : FlatExecution α :=
  fun nesting before =>
    let (result, after) := action nesting before
    (result.mapError (·.within site), after)

def lookup (name : String) : FlatExecution Value := do
  match (← get).get? name with
  | some value => pure value
  | none => fail (.unboundIdentifier name)

/-- Binds a name, anew if it is bound. -/
def assign (name : String) (value : Value) : FlatExecution Unit :=
  modify (·.insert name value)

/-- The store is a machine; what a level is for does not matter to it. -/
instance : Machine FlatExecution where
  fail := fail
  nested _ := nested
  enclosed := enclosed
  during := during
  lookup := lookup
  assign := assign

def evaluate (e : Expr) : FlatExecution Value := Machine.evaluate e

def execute (s : Stmt) : FlatExecution Value := Machine.execute s

def executeAll (last : Value) (body : List Stmt) : FlatExecution Value :=
  Machine.executeAll last body

/-- Runs a program, whose root block is no block of its own. -/
def interpret (root : Stmt) : FlatExecution Value := executeAll .unit root.statements

/-- Runs a computation that is part of no other one. -/
def start (action : FlatExecution α) (limit : Nat) (store : Scope) :
    Except ExecutionError α × Scope :=
  action ⟨0, limit⟩ store

theorem evaluate_identifier (name : String) :
    evaluate (.identifier name) = nested (lookup name) := rfl

theorem execute_expression (value : Expr) :
    execute (.expression value) = nested (during (.expression value) (evaluate value)) := rfl

theorem execute_block (body : List Stmt) :
    execute (.block body) = nested (enclosed (executeAll .unit body)) := rfl

theorem executeAll_cons (last : Value) (s : Stmt) (rest : List Stmt) :
    executeAll last (s :: rest) = execute s >>= fun value => executeAll value rest := rfl

theorem bind_apply (action : FlatExecution α) (next : α → FlatExecution β) (nesting : Nesting)
    (store : Scope) : (action >>= next) nesting store =
      match action nesting store with
      | (.ok a, after) => next a nesting after
      | (.error e, after) => (.error e, after) := by
  simp only [bind, ReaderT.bind, ExceptT.bind, ExceptT.mk, StateT.bind]
  generalize action nesting store = outcome
  obtain ⟨result, after⟩ := outcome
  cases result <;> rfl

theorem nested_of_room {nesting : Nesting} (room : nesting.depth < nesting.limit)
    (action : FlatExecution α) :
    nested action nesting = action { nesting with depth := nesting.depth + 1 } :=
  if_pos room

theorem nested_of_full {nesting : Nesting} (full : ¬ nesting.depth < nesting.limit)
    (action : FlatExecution α) :
    nested action nesting = throw (.bare (.depthLimit nesting.limit)) :=
  if_neg full

theorem lookup_apply (name : String) (nesting : Nesting) (store : Scope) :
    lookup name nesting store =
      match store.get? name with
      | some value => (.ok value, store)
      | none => (.error (.bare (.unboundIdentifier name)), store) := by
  rw [lookup, bind_apply]
  change (match store.get? name with
    | some value => pure value
    | none => fail _ : FlatExecution Value) nesting store = _
  cases store.get? name <;> rfl

end FlatExecution
end Scriptlet
