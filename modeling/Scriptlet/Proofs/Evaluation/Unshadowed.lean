import Mathlib.Data.List.Nodup
import Scriptlet.Proofs.Evaluation.Passage

/-! Programs never shadow a name. A name is bound anew only where no scope of the chain binds it,
and so it is in the chain once at most. This is kept by every step of every run; then every visible
name has one binding, and it does not matter in which order the scopes are searched. -/
namespace Scriptlet

namespace Scope

/-- The names of the bindings of a scope. -/
def names (scope : Scope) : List String := scope.bindings.map Prod.fst

theorem mem_names {scope : Scope} {name : String} :
    name ∈ scope.names ↔ scope.binds name = true := by
  rw [← not_iff_not, Bool.not_eq_true, binds_eq_false, get?, List.lookup_eq_none_iff, names,
    List.mem_map]
  simp only [not_exists, not_and, bne_iff_ne]
  exact ⟨fun free p among same => free p among same.symm,
    fun free p among same => free p among same.symm⟩

/-- A name that is bound anew is the last one. -/
theorem names_insert (scope : Scope) (name : String) (value : Value) :
    (scope.insert name value).names =
      if name ∈ scope.names then scope.names else scope.names ++ [name] := by
  obtain ⟨bindings⟩ := scope
  simp only [insert, names]
  induction bindings with
  | nil => rfl
  | cons binding rest ih =>
    obtain ⟨bound, old⟩ := binding
    by_cases here : name = bound
    · simp [set, here]
    · simp only [set, here, ↓reduceIte, List.map_cons, ih]
      by_cases among : name ∈ rest.map Prod.fst <;> simp [here, among]

end Scope

namespace ScopeChain

/-- The names of all bindings of a chain, as often as they are bound. -/
def names (chain : ScopeChain) : List String := chain.scopes.flatMap Scope.names

theorem names_eq (chain : ScopeChain) :
    chain.names = chain.innermost.names ++ chain.outer.flatMap Scope.names := by
  rw [names, scopes, List.flatMap_cons]

theorem mem_names {chain : ScopeChain} {name : String} :
    name ∈ chain.names ↔ (chain.get? name).isSome = true := by
  rw [get?, ← find?, isSome_find?, names, List.mem_flatMap]
  simp [Scope.mem_names]

theorem names_reassign? {scopes changed : List Scope}
    (found : reassign? name value scopes = some changed) :
    changed.flatMap Scope.names = scopes.flatMap Scope.names := by
  induction scopes generalizing changed with
  | nil => contradiction
  | cons scope outer ih =>
    rw [reassign?] at found
    split at found
    · rename_i bound
      cases found
      rw [List.flatMap_cons, Scope.names_insert, if_pos (Scope.mem_names.mpr bound),
        List.flatMap_cons]
    · obtain ⟨rest, further, rfl⟩ := Option.map_eq_some_iff.mp found
      rw [List.flatMap_cons, ih further, List.flatMap_cons]

/-- Setting a name binds it only if no scope binds it. -/
theorem names_set (chain : ScopeChain) (name : String) (value : Value) :
    (chain.set name value).names = chain.names ∨
      name ∉ chain.names ∧ (chain.set name value).names =
        chain.innermost.names ++ name :: chain.outer.flatMap Scope.names := by
  obtain ⟨bound, eq⟩ | ⟨_, changed, found, eq⟩ | ⟨unbound, eq⟩ := chain.set_cases name value
  · refine .inl ?_
    rw [eq, names_eq, define, Scope.names_insert, if_pos (Scope.mem_names.mpr bound), names_eq]
  · refine .inl ?_
    rw [eq, names_eq, names_reassign? found, names_eq]
  · have absent : name ∉ chain.names := by
      rw [mem_names, unbound]
      exact Bool.false_ne_true
    have free : name ∉ chain.innermost.names := fun among =>
      absent (by rw [names_eq]; exact List.mem_append_left _ among)
    refine .inr ⟨absent, ?_⟩
    rw [eq, names_eq, define, Scope.names_insert, if_neg free, List.append_assoc]
    rfl

theorem nodup_set {chain : ScopeChain} (distinct : chain.names.Nodup) (name : String)
    (value : Value) : (chain.set name value).names.Nodup := by
  obtain same | ⟨absent, anew⟩ := chain.names_set name value
  · rwa [same]
  · rw [anew, List.nodup_middle, ← names_eq]
    exact List.nodup_cons.mpr ⟨absent, distinct⟩

theorem nodup_leave {chain : ScopeChain} (distinct : chain.names.Nodup) :
    chain.leave.names.Nodup := by
  by_cases inside : chain.outer = []
  · rw [leave, inside]
    exact distinct
  · rw [names, scopes_leave inside]
    rw [names_eq] at distinct
    exact distinct.of_append_right

/-- No name is bound in two scopes of a chain. Every visible name has one binding in all scopes
together, and whoever searches the scopes finds it, in whatever order. -/
structure Unshadowed (chain : ScopeChain) : Prop where
  apart : Apart chain.scopes
  once : ∀ name, chain.names.count name = if (chain.get? name).isSome then 1 else 0
  order : ∀ list : List Scope, list.Perm chain.scopes → ∀ name, find? list name = chain.get? name

theorem apart_of_nodup {chain : ScopeChain} (distinct : chain.names.Nodup) :
    Apart chain.scopes := by
  obtain ⟨_, disjoint⟩ := List.nodup_flatMap.mp distinct
  refine List.pairwise_map.mpr (disjoint.imp ?_)
  intro inner outer apart name bound
  rw [← Bool.not_eq_true]
  exact fun twice => apart (Scope.mem_names.mpr bound) (Scope.mem_names.mpr twice)

/-- Where no name is in two scopes, every scope that binds a name has the binding that is found. -/
theorem Apart.find?_eq {scopes : List Scope} (apart : Apart scopes) (among : scope ∈ scopes)
    (bound : scope.get? name = some value) : find? scopes name = some value := by
  induction scopes with
  | nil => contradiction
  | cons first outer ih =>
    obtain ⟨free, rest⟩ := apart_cons.mp apart
    rw [find?_cons]
    rcases List.mem_cons.mp among with rfl | among
    · rw [bound]
      rfl
    · have found := ih rest among
      cases here : first.get? name with
      | none => exact found
      | some other =>
        have unbound := free name (by rw [Scope.binds, here]; rfl)
        rw [unbound] at found
        contradiction

theorem unshadowed_of_nodup {chain : ScopeChain} (distinct : chain.names.Nodup) :
    Unshadowed chain := by
  have apart := apart_of_nodup distinct
  refine ⟨apart, fun name => ?_, fun list perm name => ?_⟩
  · split
    · rename_i visible
      exact List.count_eq_one_of_mem distinct (mem_names.mpr visible)
    · rename_i hidden
      exact List.count_eq_zero_of_not_mem (mt mem_names.mp hidden)
  · cases found : find? list name with
    | none =>
      refine (find?_eq_none.mpr fun scope among => ?_).symm
      exact find?_eq_none.mp found scope (perm.mem_iff.mpr among)
    | some value =>
      obtain ⟨scope, among, bound⟩ := List.exists_of_findSome?_eq_some found
      exact (apart.find?_eq (perm.mem_iff.mp among) bound).symm

end ScopeChain

/-- Every step of a run keeps all names distinct. -/
theorem Interpreter.nodup_kept : Kept fun state => state.scopes.names.Nodup := by
  intro state next step distinct
  cases step with
  | deeper => exact distinct
  | shallower => exact distinct
  | enter => exact distinct
  | leave => exact ScopeChain.nodup_leave distinct
  | set name value => exact ScopeChain.nodup_set distinct name value

/-- In every state of a session, between its calls and in each of them, no name is bound in two
scopes. A call passes from the state in which it starts through the recorded ones, step by step, to
the state that it leaves, whether it fails or not. -/
theorem names_never_shadowed (limits : Limits) (calls : List Interpreter.Call) :
    let state := Interpreter.session limits calls
    state.scopes.Unshadowed ∧
    ∀ call, (state.record call).now = state.serve call ∧
      Passes state (state.record call).past (state.serve call) ∧
      ∀ passed ∈ (state.record call).states, passed.scopes.Unshadowed := by
  intro state
  have distinct : state.scopes.names.Nodup :=
    Interpreter.session_holds Interpreter.nodup_kept limits List.nodup_nil calls
  refine ⟨ScopeChain.unshadowed_of_nodup distinct, fun call => ?_⟩
  obtain ⟨now, passes⟩ := Interpreter.record_passes (Interpreter.session_idle limits calls) call
  refine ⟨now, passes, ?_⟩
  obtain ⟨before, final⟩ := passes.holds Interpreter.nodup_kept distinct
  rw [History.states, now]
  intro passed among
  rcases List.mem_append.mp among with earlier | last
  · exact ScopeChain.unshadowed_of_nodup (before passed earlier)
  · obtain rfl := List.mem_singleton.mp last
    exact ScopeChain.unshadowed_of_nodup final

/-- A block that binds a name, with a block in it that binds another one to the same value, assigns
to the first name, and fails. -/
def nestedBindings : Stmt :=
  .block [.expression (.binary .assign (.identifier "outer") (.identifier "given")),
    .block [.expression (.binary .assign (.identifier "inner") (.identifier "outer")),
      .expression (.binary .assign (.identifier "outer") (.boolean false)),
      .expression (.identifier "missing")]]

/-- The run passes through a state with three scopes that bind a name each. The assignment to the
outer name in it has bound none in the innermost scope. -/
theorem nestedBindings_unshadowed :
    let state := Interpreter.session {} [.define "given" (.boolean true)]
    ∃ passed ∈ (state.record (.execute nestedBindings)).states,
      passed.scopes.scopes.map Scope.names = [["inner"], ["outer"], ["given"]] ∧
      passed.scopes.get? "outer" = some (.boolean false) ∧ passed.scopes.Unshadowed := by
  intro state
  obtain ⟨_, calls⟩ := names_never_shadowed {} [.define "given" (.boolean true)]
  obtain ⟨_, _, unshadowed⟩ := calls (.execute nestedBindings)
  have reached : (state.record (.execute nestedBindings)).states.any (fun passed =>
      passed.scopes.scopes.map Scope.names = [["inner"], ["outer"], ["given"]] ∧
      passed.scopes.get? "outer" = some (.boolean false)) = true := by decide +kernel
  obtain ⟨passed, among, shape⟩ := List.any_eq_true.mp reached
  obtain ⟨names, bound⟩ := of_decide_eq_true shape
  exact ⟨passed, among, names, bound, unshadowed passed among⟩

end Scriptlet
