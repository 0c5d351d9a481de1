import Scriptlet.Proofs.Evaluation.Chain

/-! The nearest binding of a name. Looking a name up and assigning to it both go through the scopes
from the innermost one outwards, and both come to the same scope, however many others bind the name
too. So assigning changes exactly the binding that a look-up finds, and leaves all others as they
are, those that it shadows included. -/
namespace Scriptlet
namespace ScopeChain

/-- What the scope at a level binds a name to. The innermost scope is at level 0. -/
def bindingAt? (scopes : List Scope) (level : Nat) (name : String) : Option Value :=
  scopes[level]?.bind (·.get? name)

@[simp] theorem bindingAt?_zero (scope : Scope) (outer : List Scope) (name : String) :
    bindingAt? (scope :: outer) 0 name = scope.get? name := rfl

@[simp] theorem bindingAt?_succ (scope : Scope) (outer : List Scope) (level : Nat)
    (name : String) :
    bindingAt? (scope :: outer) (level + 1) name = bindingAt? outer level name := by
  rw [bindingAt?, List.getElem?_cons_succ, bindingAt?]

/-- The nearest level that binds a name. -/
structure Nearest (scopes : List Scope) (name : String) (level : Nat) : Prop where
  bound : (bindingAt? scopes level name).isSome = true
  free : ∀ inner < level, bindingAt? scopes inner name = none

/-- The same scopes, but that one of them binds a name to a value. Every other binding of every
scope is as before. -/
structure Rebound (level : Nat) (name : String) (value : Value) (before after : List Scope) :
    Prop where
  length : after.length = before.length
  bindings : ∀ place other, bindingAt? after place other =
    if place = level ∧ other = name then some value else bindingAt? before place other

section Nearest

variable {scopes outer : List Scope} {scope : Scope} {name : String} {level : Nat}

theorem Nearest.here (bound : scope.binds name = true) : Nearest (scope :: outer) name 0 :=
  ⟨bound, fun _ inside => absurd inside (Nat.not_lt_zero _)⟩

theorem Nearest.further (free : scope.binds name = false) (nearest : Nearest outer name level) :
    Nearest (scope :: outer) name (level + 1) := by
  refine ⟨by rw [bindingAt?_succ]; exact nearest.bound, fun inner closer => ?_⟩
  cases inner with
  | zero => exact Scope.binds_eq_false.mp free
  | succ inner =>
    rw [bindingAt?_succ]
    exact nearest.free inner (Nat.lt_of_succ_lt_succ closer)

/-- A look-up finds the nearest binding. -/
theorem find?_nearest (nearest : Nearest scopes name level) :
    find? scopes name = bindingAt? scopes level name := by
  induction scopes generalizing level with
  | nil => rfl
  | cons scope outer ih =>
    rw [find?_cons]
    cases level with
    | zero => exact Option.or_of_isSome nearest.bound
    | succ level =>
      rw [show scope.get? name = none from nearest.free 0 (Nat.succ_pos _), Option.none_or,
        bindingAt?_succ]
      have bound := nearest.bound
      rw [bindingAt?_succ] at bound
      refine ih ⟨bound, fun inner closer => ?_⟩
      have free := nearest.free (inner + 1) (Nat.succ_lt_succ closer)
      rwa [bindingAt?_succ] at free

theorem rebound_insert (scope : Scope) (outer : List Scope) (name : String) (value : Value) :
    Rebound 0 name value (scope :: outer) (scope.insert name value :: outer) := by
  refine ⟨rfl, fun place other => ?_⟩
  cases place with
  | zero =>
    rw [bindingAt?_zero, bindingAt?_zero, Scope.get?_insert]
    by_cases same : other = name <;> simp [same]
  | succ place => simp

theorem Rebound.further {value : Value} {changed : List Scope} (scope : Scope)
    (rebound : Rebound level name value outer changed) :
    Rebound (level + 1) name value (scope :: outer) (scope :: changed) := by
  refine ⟨by simp [rebound.length], fun place other => ?_⟩
  cases place with
  | zero => simp
  | succ place => simp [rebound.bindings]

/-- Reassigning changes the nearest binding. -/
theorem reassign?_rebound {value : Value} {changed : List Scope}
    (found : reassign? name value scopes = some changed) :
    ∃ level, Nearest scopes name level ∧ Rebound level name value scopes changed := by
  induction scopes generalizing changed with
  | nil => contradiction
  | cons scope outer ih =>
    rw [reassign?, ← Scope.binds] at found
    cases bound : scope.binds name with
    | true =>
      rw [if_pos bound] at found
      cases found
      exact ⟨0, .here bound, rebound_insert scope outer name value⟩
    | false =>
      rw [if_neg (by simp [bound])] at found
      obtain ⟨rest, further, rfl⟩ := Option.map_eq_some_iff.mp found
      obtain ⟨level, nearest, rebound⟩ := ih further
      exact ⟨level + 1, nearest.further bound, rebound.further scope⟩

end Nearest

section Chain

variable (chain : ScopeChain) (name : String) (value : Value)

/-- The innermost scope is no exception for an assignment. -/
theorem scopes_assign? :
    (chain.assign? name value).map scopes = reassign? name value chain.scopes := by
  rw [assign?, scopes, reassign?]
  split
  · rfl
  · cases reassign? name value chain.outer <;> rfl

/-- Assigning as a change of a chain in place: whether the name is bound, and the chain
afterwards. -/
def update : Bool × ScopeChain :=
  match chain.assign? name value with
  | some changed => (true, changed)
  | none => (false, chain)

/-- What a program does on an assignment: it updates the chain, and where that finds no binding, it
defines the name in the chain that is left. -/
theorem set_eq_update : chain.set name value =
    if (chain.update name value).1 then (chain.update name value).2
    else (chain.update name value).2.define name value := by
  rw [set, update]
  cases chain.assign? name value <;> rfl

/-- What updating a chain does: it changes the chain as the list of its scopes is reassigned, unless
the name is bound in none of them. -/
theorem update_cases :
    (chain.update name value = (false, chain) ∧ chain.get? name = none) ∨
    ∃ changed, chain.update name value = (true, changed) ∧
      reassign? name value chain.scopes = some changed.scopes := by
  have assigned := chain.scopes_assign? name value
  rw [update]
  cases outcome : chain.assign? name value with
  | none =>
    rw [outcome] at assigned
    exact .inl ⟨rfl, find?_eq_none_of_reassign? assigned.symm⟩
  | some changed => exact .inr ⟨changed, rfl, by rw [← assigned, outcome]; rfl⟩

/-- Assigning to a name finds a binding exactly where a look-up does. Then it changes the nearest
binding, which is the one that the look-up finds, and no other binding of any scope; and where there
is none, it leaves the chain as it is. Defining a name changes the innermost scope only. -/
theorem nearest_binding_changes :
    let found := (chain.update name value).1
    let after := (chain.update name value).2
    found = (chain.get? name).isSome ∧
    (found = true →
      (∃ level, Nearest chain.scopes name level ∧
        chain.get? name = bindingAt? chain.scopes level name ∧
        Rebound level name value chain.scopes after.scopes) ∧
      ∀ other, after.get? other = if other = name then some value else chain.get? other) ∧
    (found = false → after = chain) ∧
    (chain.set name value = if found then after else after.define name value) ∧
    (chain.define name value).outer = chain.outer ∧
    Rebound 0 name value chain.scopes (chain.define name value).scopes ∧
    ∀ other, (chain.define name value).get? other =
      if other = name then some value else chain.get? other := by
  intro found after
  have defined : Rebound 0 name value chain.scopes (chain.define name value).scopes :=
    rebound_insert chain.innermost chain.outer name value
  have set := chain.set_eq_update name value
  obtain ⟨updated, unbound⟩ | ⟨changed, updated, reassigned⟩ := chain.update_cases name value
  · refine ⟨?_, ?_, ?_, set, rfl, defined, fun _ => chain.get?_define ..⟩
    · simp only [found, updated, unbound, Option.isSome_none]
    · simp only [found, updated, Bool.false_eq_true, false_implies]
    · simp only [after, updated, implies_true]
  · obtain ⟨level, nearest, rebound⟩ := reassign?_rebound reassigned
    have looked : chain.get? name = bindingAt? chain.scopes level name := find?_nearest nearest
    refine ⟨?_, ?_, ?_, set, rfl, defined, fun _ => chain.get?_define ..⟩
    · simp only [found, updated, looked, nearest.bound]
    · simp only [after, updated]
      exact fun _ => ⟨⟨level, nearest, looked, rebound⟩, find?_reassign? reassigned⟩
    · simp only [found, updated, Bool.true_eq_false, false_implies]

end Chain

/-- A chain in which the middle scope shadows a name of the global one. -/
def shadowing : ScopeChain where
  innermost := ⟨[("done", .boolean true)]⟩
  outer := [⟨[("kind", .string "inner")]⟩, ⟨[("kind", .string "outer"), ("done", .unit)]⟩]

/-- The middle scope gets the value; the shadowed binding stays, and so does the other name. -/
theorem shadowing_updated :
    let after := (shadowing.update "kind" .unit).2
    (shadowing.update "kind" .unit).1 = true ∧
    (∃ level, Nearest shadowing.scopes "kind" level ∧
      Rebound level "kind" .unit shadowing.scopes after.scopes) ∧
    bindingAt? after.scopes 1 "kind" = some .unit ∧
    bindingAt? after.scopes 2 "kind" = some (.string "outer") ∧
    (shadowing.update "lost" .unit).1 = false ∧ (shadowing.update "lost" .unit).2 = shadowing := by
  obtain ⟨_, changes, _⟩ := shadowing.nearest_binding_changes "kind" .unit
  obtain ⟨_, _, stays, _⟩ := shadowing.nearest_binding_changes "lost" .unit
  have found : (shadowing.update "kind" .unit).1 = true := by decide
  have lost : (shadowing.update "lost" .unit).1 = false := by decide
  obtain ⟨⟨level, nearest, _, rebound⟩, _⟩ := changes found
  exact ⟨found, ⟨level, nearest, rebound⟩, by decide, by decide, lost, stays lost⟩

end ScopeChain
end Scriptlet
