import Scriptlet.Proofs.Evaluation.Coupling

/-! What a program can change. A run gives new values to names that the tree assigns to, and to no
others; a name that is bound stays bound, and a block that is left forgets only what was bound in
it. All of this holds however the run ends. -/
namespace Scriptlet

section Nodes

/-- An expression, with all expressions in it. -/
def Expr.nodes : Expr → List Expr
  | binary op left right => binary op left right :: (left.nodes ++ right.nodes)
  | e => [e]

namespace Stmt

mutual

/-- All expressions in a statement. -/
def nodes : Stmt → List Expr
  | ifThen condition branch => condition.nodes ++ branch.nodes
  | ifThenElse condition branch otherwise => condition.nodes ++ (branch.nodes ++ otherwise.nodes)
  | expression value => value.nodes
  | block body => allNodes body

def allNodes : List Stmt → List Expr
  | [] => []
  | s :: rest => s.nodes ++ allNodes rest

end

theorem nodes_subset_allNodes {body : List Stmt} (among : s ∈ body) : s.nodes ⊆ allNodes body := by
  induction body with
  | nil => contradiction
  | cons first rest ih =>
    rw [allNodes]
    rcases List.mem_cons.mp among with rfl | among
    · exact List.subset_append_left ..
    · exact List.Subset.trans (ih among) (List.subset_append_right ..)

/-- The statements that a program root stands for have no other expressions than the root. -/
theorem nodes_subset_root (root : Stmt) : ∀ s ∈ root.statements, s.nodes ⊆ root.nodes := by
  intro s among
  cases root with
  | block body => exact nodes_subset_allNodes among
  | _ =>
    obtain rfl := List.mem_singleton.mp among
    exact List.Subset.refl _

end Stmt

/-- The name on the left of an assignment. -/
def Expr.target? : Expr → Option String
  | binary .assign (.identifier name) _ => some name
  | _ => none

/-- The names that are assigned to by one of the expressions. -/
def Expr.targets (nodes : List Expr) : List String := nodes.filterMap target?

def Part.nodes : Part → List Expr
  | expression e => e.nodes
  | statement s => s.nodes

theorem Part.nodes_inner {part p : Part} (inside : p ∈ part.inner) : p.nodes ⊆ part.nodes := by
  cases part with
  | expression e =>
    cases e with
    | binary op left right =>
      rcases List.mem_cons.mp inside with rfl | inside
      · exact List.subset_cons_of_subset _ (List.subset_append_left ..)
      · obtain rfl := List.mem_singleton.mp inside
        exact List.subset_cons_of_subset _ (List.subset_append_right ..)
    | _ => contradiction
  | statement s =>
    cases s with
    | expression value =>
      obtain rfl := List.mem_singleton.mp inside
      exact List.Subset.refl _
    | block body =>
      obtain ⟨s, among, rfl⟩ := List.mem_map.mp inside
      exact Stmt.nodes_subset_allNodes among
    | ifThen condition branch =>
      rcases List.mem_cons.mp inside with rfl | inside
      · exact List.subset_append_left ..
      · obtain rfl := List.mem_singleton.mp inside
        exact List.subset_append_right ..
    | ifThenElse condition branch otherwise =>
      simp only [inner, List.mem_cons, List.not_mem_nil, or_false] at inside
      rcases inside with rfl | rfl | rfl <;> simp [Part.nodes, Stmt.nodes]

end Nodes

section Touched

/-- Every computation on a store that has a property leaves one that has it. -/
def KeepsStore (property : Scope → Prop) (flat : FlatExecution α) : Prop :=
  ∀ nesting store, property store → property (flat nesting store).2

/-- A run beside itself, on a store with a property. -/
def Coupling.diagonal (property : Scope → Prop) : Coupling where
  nestings := Eq
  stores store store' := store = store' ∧ property store
  recast := id

theorem Coupling.kept_diagonal {property : Scope → Prop} {admits : Part → Prop}
    (inner : ∀ {part}, admits part → ∀ p ∈ part.inner, admits p)
    (leave : ∀ {before after : Scope}, property before → property after →
      property (after.keep before))
    (assign : ∀ {name right store} (value : Value),
      admits (.expression (.binary .assign (.identifier name) right)) → property store →
      property (store.insert name value)) : (diagonal property).KeptBy admits where
  inner := inner
  room := by rintro _ _ rfl; exact Iff.rfl
  level := by rintro _ _ rfl; rfl
  full := by rintro _ _ rfl; rfl
  bare := fun _ => rfl
  within := fun _ _ => rfl
  leave := by
    rintro _ _ _ _ ⟨rfl, before⟩ ⟨rfl, after⟩
    exact ⟨rfl, leave before after⟩
  lookup := by
    rintro _ _ _ _ ⟨rfl, _⟩
    rfl
  assign := by
    rintro _ _ _ _ value admitted ⟨rfl, holds⟩
    exact ⟨rfl, assign value admitted holds⟩

theorem Coupling.Couples.keepsStore {property : Scope → Prop} {flat : FlatExecution α}
    (couples : (Coupling.diagonal property).Couples α flat flat) : KeepsStore property flat :=
  fun nesting store holds => (couples nesting nesting store store rfl ⟨rfl, holds⟩).2.2

/-- A name that is no target among the expressions of a part keeps its value. -/
theorem kept_value (name : String) (value : Option Value) :
    (Coupling.diagonal fun store => store.get? name = value).KeptBy
      fun part => name ∉ Expr.targets part.nodes := by
  refine Coupling.kept_diagonal ?_ ?_ ?_
  · intro part free p inside among
    exact free (List.filterMap_subset _ (Part.nodes_inner inside) among)
  · intro before after same same'
    -- without a value before the block the name is forgotten, so it has none again
    rw [Scope.get?_keep, Scope.binds, same, same']
    cases value <;> rfl
  · intro other right store value' free same
    have apart : name ≠ other := by
      rintro rfl
      exact free (List.mem_filterMap.mpr ⟨_, List.mem_cons_self .., rfl⟩)
    rw [Scope.get?_insert, if_neg apart, same]

/-- A name that is bound stays bound. -/
theorem kept_bound (name : String) :
    (Coupling.diagonal fun store => store.binds name = true).KeptBy fun _ => True := by
  refine Coupling.kept_diagonal (fun _ _ _ => trivial) ?_ ?_
  · intro before after bound bound'
    rw [Scope.binds, Scope.get?_keep, if_pos bound]
    exact bound'
  · intro other right store value _ bound
    rw [Scope.binds_insert, bound, Bool.or_true]

/-- A computation on a store that changes these names only, and leaves no name unbound. -/
structure ChangesOnly (changed : List String) (flat : FlatExecution α) : Prop where
  value : ∀ name ∉ changed, ∀ value, KeepsStore (fun store => store.get? name = value) flat
  bound : ∀ name, KeepsStore (fun store => store.binds name = true) flat

namespace ChangesOnly

theorem evaluate (e : Expr) : ChangesOnly (Expr.targets e.nodes) (FlatExecution.evaluate e) where
  value := fun name free value => ((kept_value name value).evaluate e free).keepsStore
  bound := fun name => ((kept_bound name).evaluate e trivial).keepsStore

theorem execute (s : Stmt) : ChangesOnly (Expr.targets s.nodes) (FlatExecution.execute s) where
  value := fun name free value => ((kept_value name value).execute s free).keepsStore
  bound := fun name => ((kept_bound name).execute s trivial).keepsStore

theorem interpret (root : Stmt) :
    ChangesOnly (Expr.targets root.nodes) (FlatExecution.interpret root) where
  value := fun name free value =>
    ((kept_value name value).executeAll .unit root.statements fun s among assigned =>
      free (List.filterMap_subset _ (root.nodes_subset_root s among) assigned)).keepsStore
  bound := fun name =>
    ((kept_bound name).executeAll .unit root.statements fun _ _ => trivial).keepsStore

end ChangesOnly

/-- A block forgets what was not bound before it, and nothing else becomes unbound in it. -/
theorem binds_block (body : List Stmt) (nesting : Nesting) (store : Scope) :
    (FlatExecution.execute (.block body) nesting store).2.binds = store.binds := by
  funext name
  rw [FlatExecution.execute_block]
  by_cases room : nesting.depth < nesting.limit
  · rw [FlatExecution.nested_of_room room]
    have stays := ((kept_bound name).executeAll .unit body fun _ _ => trivial).keepsStore
      { nesting with depth := nesting.depth + 1 } store
    change Scope.binds (Scope.keep _ store) name = _
    rw [Scope.binds, Scope.get?_keep]
    cases bound : store.binds name with
    | true => exact stays bound
    | false => rfl
  · rw [FlatExecution.nested_of_full room]
    rfl

end Touched

section Session

variable {limits : Limits} {state : Interpreter}

/-- Only the given names may have other values afterwards, and no name has become unbound. -/
structure Interpreter.Touches (changed : List String) (before after : Interpreter) : Prop where
  others : ∀ name ∉ changed, after.get? name = before.get? name
  bound : ∀ name, (before.get? name).isSome = true → (after.get? name).isSome = true

theorem Interpreter.Idle.touches (idle : state.Idle limits) {action : Execution α}
    {flat : FlatExecution α} (refines : Refines action flat) (changes : ChangesOnly changed flat) :
    state.Touches changed (action state).2 := by
  obtain ⟨_, lookups⟩ := (idle.agrees refines).same
  constructor
  · intro name free
    rw [lookups, idle.get?_eq]
    exact changes.value name free _ _ _ rfl
  · intro name bound
    rw [idle.get?_eq] at bound
    rw [lookups]
    exact changes.bound name _ _ bound

/-- At every point of a session, a call changes no name that its tree does not assign to, and leaves
no name unbound, whether it succeeds or fails. A block that is executed as a statement leaves the
same names bound as before. -/
theorem only_targets_change (limits : Limits) (calls : List Interpreter.Call) :
    let state := Interpreter.session limits calls
    (∀ root : Stmt, state.Touches (Expr.targets root.nodes) (state.interpret root).2) ∧
    (∀ s : Stmt, state.Touches (Expr.targets s.nodes) (state.execute s).2) ∧
    (∀ e : Expr, state.Touches (Expr.targets e.nodes) (state.evaluate e).2) ∧
    ∀ body name, ((state.execute (.block body)).2.get? name).isSome = (state.get? name).isSome := by
  intro state
  have idle := Interpreter.session_idle limits calls
  refine ⟨?_, ?_, ?_, ?_⟩
  · intro root
    exact idle.touches (.executeAll .unit root.statements) (.interpret root)
  · intro s
    exact idle.touches (.execute s) (.execute s)
  · intro e
    exact idle.touches (.evaluate e) (.evaluate e)
  · intro body name
    obtain ⟨_, lookups⟩ := (idle.agrees (.execute (.block body))).same
    refine (congrArg Option.isSome (lookups name)).trans ?_
    rw [idle.get?_eq]
    exact congrFun (binds_block body _ state.globals) name

end Session

end Scriptlet
