import Scriptlet.Value

/-! Lexical scopes. A chain of scopes is searched from the innermost scope outwards; assigning
changes the nearest binding, and defining binds in the innermost scope. -/
namespace Scriptlet

/-- The bindings of one scope, at most one for each name. -/
structure Scope where
  bindings : List (String × Value)

namespace Scope

def empty : Scope := ⟨[]⟩

def get? (scope : Scope) (name : String) : Option Value := scope.bindings.lookup name

/-- Sets a name in a list of bindings, in its place if it is there. -/
def set (name : String) (value : Value) : List (String × Value) → List (String × Value)
  | [] => [(name, value)]
  | (other, old) :: rest =>
    if name = other then (name, value) :: rest else (other, old) :: set name value rest

/-- Binds a name, anew if it is bound. -/
def insert (scope : Scope) (name : String) (value : Value) : Scope :=
  ⟨set name value scope.bindings⟩

@[simp] theorem get?_empty (name : String) : empty.get? name = none := rfl

theorem get?_insert (scope : Scope) (name other : String) (value : Value) :
    (scope.insert name value).get? other =
      if other = name then some value else scope.get? other := by
  obtain ⟨bindings⟩ := scope
  simp only [insert, get?]
  induction bindings with
  | nil =>
    simp only [set, List.lookup_cons, List.lookup_nil]
    by_cases same : other = name <;> simp [same, beq_false_of_ne]
  | cons binding rest ih =>
    obtain ⟨bound, old⟩ := binding
    by_cases here : name = bound
    · subst here
      simp only [set, ↓reduceIte, List.lookup_cons]
      by_cases same : other = name <;> simp [same, beq_false_of_ne]
    · simp only [set, here, ↓reduceIte, List.lookup_cons, ih]
      by_cases same : other = bound
      · subst same
        simp [Ne.symm here]
      · simp [same, beq_false_of_ne]

end Scope

/-- A chain of scopes; the last one of `outer` is the global scope, or `innermost` is if there is
no other. -/
structure ScopeChain where
  innermost : Scope
  outer : List Scope

namespace ScopeChain

def global : ScopeChain := ⟨.empty, []⟩

/-- The scopes from the innermost one outwards. -/
def scopes (chain : ScopeChain) : List Scope := chain.innermost :: chain.outer

/-- What a name is bound to in the nearest scope that binds it. -/
def get? (chain : ScopeChain) (name : String) : Option Value :=
  chain.scopes.findSome? (·.get? name)

/-- Binds a name in the innermost scope. -/
def define (chain : ScopeChain) (name : String) (value : Value) : ScopeChain :=
  { chain with innermost := chain.innermost.insert name value }

/-- Changes the nearest binding of a name in a list of scopes, if there is one. -/
def reassign? (name : String) (value : Value) : List Scope → Option (List Scope)
  | [] => none
  | scope :: outer =>
    if (scope.get? name).isSome then some (scope.insert name value :: outer)
    else (reassign? name value outer).map (scope :: ·)

/-- Changes the nearest binding of a name, if there is one. -/
def assign? (chain : ScopeChain) (name : String) (value : Value) : Option ScopeChain :=
  if (chain.innermost.get? name).isSome then some (chain.define name value)
  else (reassign? name value chain.outer).map fun outer => { chain with outer }

/-- Opens a scope inside the innermost one. -/
def enter (chain : ScopeChain) : ScopeChain := ⟨.empty, chain.scopes⟩

/-- Closes the innermost scope; the global scope stays. -/
def leave (chain : ScopeChain) : ScopeChain :=
  match chain.outer with
  | [] => chain
  | scope :: outer => ⟨scope, outer⟩

end ScopeChain
end Scriptlet
