import Scriptlet.Scope

/-! Which names a chain of scopes binds. Assigning binds no name in two scopes: it changes the one
binding that there is, or makes one in the innermost scope. As long as the scopes have no name in
common, leaving one of them forgets the names that were not bound before and nothing else. -/
namespace Scriptlet

namespace Scope

/-- Whether a scope binds a name. -/
def binds (scope : Scope) (name : String) : Bool := (scope.get? name).isSome

theorem binds_eq_false {scope : Scope} : scope.binds name = false ↔ scope.get? name = none := by
  rw [binds, ← Bool.not_eq_true, Option.not_isSome_iff_eq_none]

theorem binds_insert (scope : Scope) (name other : String) (value : Value) :
    (scope.insert name value).binds other = (decide (other = name) || scope.binds other) := by
  rw [binds, get?_insert]
  by_cases same : other = name <;> simp [same, binds]

/-- Binding a name anew binds no other names. -/
theorem binds_insert_bound {scope : Scope} (bound : scope.binds name = true) (value : Value) :
    (scope.insert name value).binds = scope.binds := by
  funext other
  rw [binds_insert]
  by_cases same : other = name
  · subst same
    rw [bound, Bool.or_true]
  · rw [decide_eq_false same, Bool.false_or]

end Scope

namespace ScopeChain

/-- What a name is bound to in the nearest scope of a list. -/
def find? (scopes : List Scope) (name : String) : Option Value := scopes.findSome? (·.get? name)

theorem find?_cons (scope : Scope) (outer : List Scope) (name : String) :
    find? (scope :: outer) name = (scope.get? name).or (find? outer name) := by
  rw [find?, List.findSome?_cons]
  cases scope.get? name <;> rfl

theorem get?_eq (chain : ScopeChain) (name : String) :
    chain.get? name = (chain.innermost.get? name).or (find? chain.outer name) :=
  find?_cons chain.innermost chain.outer name

/-- Whether a name is found depends on the names that the scopes bind. -/
theorem isSome_find? (scopes : List Scope) (name : String) :
    (find? scopes name).isSome = (scopes.map Scope.binds).any (· name) := by
  induction scopes with
  | nil => rfl
  | cons scope outer ih =>
    rw [find?_cons, Option.isSome_or, ih]
    rfl

theorem find?_eq_none : find? list name = none ↔ ∀ scope ∈ list, scope.binds name = false := by
  simp only [find?, List.findSome?_eq_none_iff, Scope.binds_eq_false]

/-- No name is bound in two scopes. -/
def Apart (scopes : List Scope) : Prop :=
  (scopes.map Scope.binds).Pairwise fun inner outer =>
    ∀ name, inner name = true → outer name = false

theorem apart_cons {rest : List Scope} : Apart (scope :: rest) ↔
    (∀ name, scope.binds name = true → find? rest name = none) ∧ Apart rest := by
  rw [Apart, List.map_cons, List.pairwise_cons, List.forall_mem_map, ← Apart]
  apply and_congr_left
  intro _
  constructor
  · intro free name bound
    exact find?_eq_none.mpr fun other among => free other among name bound
  · intro free other among name bound
    exact find?_eq_none.mp (free name bound) other among

/-- Whether scopes are apart depends on the names that they bind. -/
theorem Apart.congr {before after : List Scope} (apart : Apart before)
    (same : after.map Scope.binds = before.map Scope.binds) : Apart after := by
  rw [Apart, same]
  exact apart

section Reassign

variable {name : String} {value : Value} {scopes changed : List Scope}

theorem find?_reassign? (changes : reassign? name value scopes = some changed) (other : String) :
    find? changed other = if other = name then some value else find? scopes other := by
  induction scopes generalizing changed with
  | nil => contradiction
  | cons scope outer ih =>
    rw [reassign?] at changes
    split at changes
    · cases changes
      rw [find?_cons, Scope.get?_insert, find?_cons]
      split <;> rfl
    · rename_i free
      obtain ⟨rest, found, rfl⟩ := Option.map_eq_some_iff.mp changes
      rw [find?_cons, ih found, find?_cons]
      split
      · subst other
        rw [Option.not_isSome_iff_eq_none.mp free, Option.none_or]
      · rfl

/-- Reassigning binds no other names. -/
theorem binds_reassign? (changes : reassign? name value scopes = some changed) :
    changed.map Scope.binds = scopes.map Scope.binds := by
  induction scopes generalizing changed with
  | nil => contradiction
  | cons scope outer ih =>
    rw [reassign?] at changes
    split at changes
    · rename_i bound
      cases changes
      rw [List.map_cons, Scope.binds_insert_bound bound, List.map_cons]
    · obtain ⟨rest, found, rfl⟩ := Option.map_eq_some_iff.mp changes
      rw [List.map_cons, ih found, List.map_cons]

theorem find?_eq_none_of_reassign? (unchanged : reassign? name value scopes = none) :
    find? scopes name = none := by
  induction scopes with
  | nil => rfl
  | cons scope outer ih =>
    rw [reassign?] at unchanged
    split at unchanged
    · contradiction
    · rename_i free
      rw [find?_cons, Option.not_isSome_iff_eq_none.mp free, Option.none_or]
      exact ih (Option.map_eq_none_iff.mp unchanged)

end Reassign

/-- Changes the nearest binding of a name, or binds it in the innermost scope. -/
def set (chain : ScopeChain) (name : String) (value : Value) : ScopeChain :=
  (chain.assign? name value).getD (chain.define name value)

theorem get?_define (chain : ScopeChain) (name other : String) (value : Value) :
    (chain.define name value).get? other =
      if other = name then some value else chain.get? other := by
  rw [get?_eq, define, Scope.get?_insert, get?_eq]
  split <;> rfl

/-- What setting a name does: a chain in which it is bound changes its nearest binding and binds
the same names as before, and any other chain binds the name in its innermost scope. -/
theorem set_cases (chain : ScopeChain) (name : String) (value : Value) :
    (chain.innermost.binds name = true ∧ chain.set name value = chain.define name value) ∨
    (chain.innermost.binds name = false ∧ ∃ changed,
      reassign? name value chain.outer = some changed ∧
      chain.set name value = { chain with outer := changed }) ∨
    (chain.get? name = none ∧ chain.set name value = chain.define name value) := by
  cases bound : chain.innermost.binds name with
  | true => exact .inl ⟨rfl, by rw [set, assign?, ← Scope.binds, bound]; rfl⟩
  | false =>
    have set_eq : chain.set name value =
        ((reassign? name value chain.outer).map fun outer => { chain with outer }).getD
          (chain.define name value) := by
      rw [set, assign?, ← Scope.binds, bound]
      rfl
    cases found : reassign? name value chain.outer with
    | some changed => exact .inr (.inl ⟨rfl, changed, rfl, by rw [set_eq, found]; rfl⟩)
    | none =>
      refine .inr (.inr ⟨?_, by rw [set_eq, found]; rfl⟩)
      rw [get?_eq, Scope.binds_eq_false.mp bound, Option.none_or, find?_eq_none_of_reassign? found]

/-- Setting a name gives it a value, and no other name. -/
theorem get?_set (chain : ScopeChain) (name other : String) (value : Value) :
    (chain.set name value).get? other = if other = name then some value else chain.get? other := by
  obtain ⟨_, eq⟩ | ⟨free, changed, found, eq⟩ | ⟨_, eq⟩ := chain.set_cases name value
  · rw [eq, get?_define]
  · rw [eq, get?_eq, find?_reassign? found, get?_eq]
    split
    · subst other
      rw [Scope.binds_eq_false.mp free, Option.none_or]
    · rfl
  · rw [eq, get?_define]

/-- Setting a name binds no other names outside the innermost scope. -/
theorem binds_outer_set (chain : ScopeChain) (name : String) (value : Value) :
    (chain.set name value).outer.map Scope.binds = chain.outer.map Scope.binds := by
  obtain ⟨_, eq⟩ | ⟨_, changed, found, eq⟩ | ⟨_, eq⟩ := chain.set_cases name value
  · rw [eq, define]
  · rw [eq, binds_reassign? found]
  · rw [eq, define]

/-- Setting a name leaves no name unbound that the innermost scope binds. -/
theorem binds_innermost_set {chain : ScopeChain} {other : String}
    (bound : chain.innermost.binds other = true) (name : String) (value : Value) :
    (chain.set name value).innermost.binds other = true := by
  have insert : (chain.define name value).innermost.binds other = true := by
    rw [define, Scope.binds_insert, bound, Bool.or_true]
  obtain ⟨_, eq⟩ | ⟨_, changed, _, eq⟩ | ⟨_, eq⟩ := chain.set_cases name value
  · rwa [eq]
  · rwa [eq]
  · rwa [eq]

/-- Setting a name binds it in no second scope. -/
theorem Apart.set {chain : ScopeChain} (apart : Apart chain.scopes) (name : String)
    (value : Value) : Apart (chain.set name value).scopes := by
  obtain ⟨bound, eq⟩ | ⟨_, changed, found, eq⟩ | ⟨unbound, eq⟩ := chain.set_cases name value
  · refine apart.congr ?_
    rw [eq, define, scopes, scopes, List.map_cons, Scope.binds_insert_bound bound, List.map_cons]
  · refine apart.congr ?_
    rw [eq, scopes, scopes, List.map_cons, binds_reassign? found, List.map_cons]
  · rw [eq, define, scopes]
    obtain ⟨free, outside⟩ := apart_cons.mp apart
    refine apart_cons.mpr ⟨?_, outside⟩
    intro other bound
    rw [Scope.binds_insert, Bool.or_eq_true, decide_eq_true_iff] at bound
    rcases bound with rfl | bound
    · rw [get?_eq, Option.or_eq_none_iff] at unbound
      exact unbound.2
    · exact free other bound

@[simp] theorem get?_enter (chain : ScopeChain) (name : String) :
    chain.enter.get? name = chain.get? name := by
  rw [get?_eq, enter, Scope.get?_empty, Option.none_or]
  rfl

theorem Apart.enter {chain : ScopeChain} (apart : Apart chain.scopes) :
    Apart chain.enter.scopes := by
  refine apart_cons.mpr ⟨?_, apart⟩
  intro name bound
  contradiction

theorem scopes_leave {chain : ScopeChain} (inside : chain.outer ≠ []) :
    chain.leave.scopes = chain.outer := by
  rw [leave]
  split
  · contradiction
  · rename_i outer
    exact outer.symm

section Entered

variable {before after : ScopeChain}
  (entered : after.outer.map Scope.binds = before.scopes.map Scope.binds)

include entered

/-- A chain inside another one is inside some scope. -/
theorem outer_ne_nil : after.outer ≠ [] := by
  intro outermost
  rw [outermost] at entered
  contradiction

theorem binds_leave : after.leave.scopes.map Scope.binds = before.scopes.map Scope.binds := by
  rw [scopes_leave (outer_ne_nil entered), entered]

theorem binds_outer_leave :
    after.leave.outer.map Scope.binds = before.outer.map Scope.binds := by
  have tails := congrArg List.tail (binds_leave entered)
  rw [← List.map_tail, ← List.map_tail] at tails
  exact tails

end Entered

/-- Leaving the innermost scope forgets the names that are bound in it and nowhere else. -/
theorem get?_leave {chain : ScopeChain} (apart : Apart chain.scopes) (inside : chain.outer ≠ [])
    (name : String) :
    chain.leave.get? name = if (find? chain.outer name).isSome then chain.get? name else none := by
  rw [get?, scopes_leave inside, ← find?]
  cases found : find? chain.outer name with
  | none => rfl
  | some value =>
    have free : chain.innermost.binds name = false := by
      rw [← Bool.not_eq_true]
      intro twice
      rw [(apart_cons.mp apart).1 name twice] at found
      contradiction
    rw [get?_eq, Scope.binds_eq_false.mp free, Option.none_or, found]
    rfl

end ScopeChain
end Scriptlet
