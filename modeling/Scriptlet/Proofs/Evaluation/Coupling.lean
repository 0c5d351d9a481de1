import Scriptlet.Proofs.Evaluation.Session

/-! Two runs side by side. Runs of one program on two stores that have something in common go on
alike, as long as every operation keeps what they have in common. What that is, how deep the two
runs are nested, and how their errors differ is left open. -/
namespace Scriptlet

/-- What two runs of a program have in common: where they are nested, what their stores share, and
which error of the second run stands for one of the first. -/
structure Coupling where
  nestings : Nesting → Nesting → Prop
  stores : Scope → Scope → Prop
  recast : ExecutionError → ExecutionError

namespace Coupling

/-- The parts of a program that are admitted keep what two runs have in common. -/
structure KeptBy (coupling : Coupling) (admits : Part → Prop) : Prop where
  inner : ∀ {part}, admits part → ∀ p ∈ part.inner, admits p
  room : ∀ {nesting other}, coupling.nestings nesting other →
    (nesting.depth < nesting.limit ↔ other.depth < other.limit)
  level : ∀ {nesting other}, coupling.nestings nesting other →
    coupling.nestings { nesting with depth := nesting.depth + 1 }
      { other with depth := other.depth + 1 }
  full : ∀ {nesting other}, coupling.nestings nesting other →
    coupling.recast (.bare (.depthLimit nesting.limit)) = .bare (.depthLimit other.limit)
  bare : ∀ {cause}, (∀ limit, cause ≠ .depthLimit limit) →
    coupling.recast (.bare cause) = .bare cause
  within : ∀ site e, coupling.recast (e.within site) = (coupling.recast e).within site
  leave : ∀ {before before' after after'}, coupling.stores before before' →
    coupling.stores after after' → coupling.stores (after.keep before) (after'.keep before')
  lookup : ∀ {name store store'}, admits (.expression (.identifier name)) →
    coupling.stores store store' → store.get? name = store'.get? name
  assign : ∀ {name right store store'} (value : Value),
    admits (.expression (.binary .assign (.identifier name) right)) →
    coupling.stores store store' → coupling.stores (store.insert name value)
      (store'.insert name value)

/-- The second computation does what the first does, in all that they have in common. -/
def Couples (coupling : Coupling) (α : Type) (x y : FlatExecution α) : Prop :=
  ∀ (nesting other : Nesting) (store store' : Scope), coupling.nestings nesting other →
    coupling.stores store store' →
    (y other store').1 = (x nesting store).1.mapError coupling.recast ∧
      coupling.stores (x nesting store).2 (y other store').2

namespace Couples

variable {coupling : Coupling}

theorem pure (a : α) : Couples coupling α (Pure.pure a) (Pure.pure a) :=
  fun _ _ _ _ _ shared => ⟨rfl, shared⟩

theorem fail {cause : ExecutionError.Cause} (same : coupling.recast (.bare cause) = .bare cause) :
    Couples coupling α (FlatExecution.fail cause) (FlatExecution.fail cause) :=
  fun _ _ _ _ _ shared => ⟨congrArg Except.error same.symm, shared⟩

theorem bind {x y : FlatExecution α} {f g : α → FlatExecution β}
    (first : Couples coupling α x y) (next : ∀ a, Couples coupling β (f a) (g a)) :
    Couples coupling β (x >>= f) (y >>= g) := by
  intro nesting other store store' beside shared
  obtain ⟨result, shared⟩ := first _ _ _ _ beside shared
  rw [FlatExecution.bind_apply, FlatExecution.bind_apply]
  generalize x nesting store = outcome at result shared ⊢
  generalize y other store' = outcome' at result shared ⊢
  obtain ⟨_, after'⟩ := outcome'
  obtain ⟨outcome, after⟩ := outcome
  subst result
  cases outcome with
  | ok a => exact next a _ _ _ _ beside shared
  | error e => exact ⟨rfl, shared⟩

theorem enclosed {x y : FlatExecution α} {admits : Part → Prop} (kept : coupling.KeptBy admits)
    (inner : Couples coupling α x y) :
    Couples coupling α (FlatExecution.enclosed x) (FlatExecution.enclosed y) := by
  intro nesting other store store' beside shared
  obtain ⟨result, after⟩ := inner _ _ _ _ beside shared
  exact ⟨result, kept.leave shared after⟩

theorem during {x y : FlatExecution α} {admits : Part → Prop} (kept : coupling.KeptBy admits)
    (site : ExecutionError.Site) (inner : Couples coupling α x y) :
    Couples coupling α (FlatExecution.during site x) (FlatExecution.during site y) := by
  intro nesting other store store' beside shared
  obtain ⟨result, after⟩ := inner _ _ _ _ beside shared
  refine ⟨?_, after⟩
  change (y other store').1.mapError (·.within site) =
    ((x nesting store).1.mapError (·.within site)).mapError coupling.recast
  rw [result]
  cases (x nesting store).1 with
  | ok a => rfl
  | error e => exact congrArg Except.error (kept.within site e).symm

theorem nested {x y : FlatExecution α} {admits : Part → Prop} (kept : coupling.KeptBy admits)
    (inner : Couples coupling α x y) :
    Couples coupling α (FlatExecution.nested x) (FlatExecution.nested y) := by
  intro nesting other store store' beside shared
  by_cases room : nesting.depth < nesting.limit
  · rw [FlatExecution.nested_of_room room, FlatExecution.nested_of_room ((kept.room beside).mp room)]
    exact inner _ _ _ _ (kept.level beside) shared
  · rw [FlatExecution.nested_of_full room,
      FlatExecution.nested_of_full (mt (kept.room beside).mpr room)]
    exact ⟨congrArg Except.error (kept.full beside).symm, shared⟩

theorem lookup {admits : Part → Prop} (kept : coupling.KeptBy admits)
    (admitted : admits (.expression (.identifier name))) :
    Couples coupling Value (FlatExecution.lookup name) (FlatExecution.lookup name) := by
  intro nesting other store store' beside shared
  rw [FlatExecution.lookup_apply, FlatExecution.lookup_apply, kept.lookup admitted shared]
  cases store'.get? name with
  | some value => exact ⟨rfl, shared⟩
  | none =>
    have known : ∀ limit, ExecutionError.Cause.unboundIdentifier name ≠ .depthLimit limit := nofun
    exact ⟨congrArg Except.error (kept.bare known).symm, shared⟩

end Couples

namespace KeptBy

variable {coupling : Coupling} {admits : Part → Prop}

theorem relates (kept : coupling.KeptBy admits) :
    Machine.RelatesParts (fun (_ : Unit) => admits) id fun _ => coupling.Couples where
  inner := kept.inner
  pure := .pure
  bind := .bind
  -- an operation fails by its operands, and for the depth only where a level is entered
  fail := fun values => .fail (kept.bare fun limit same => by subst same; exact values)
  nested := fun _ => .nested kept
  lookup := fun admitted => .lookup kept admitted
  assign := fun value admitted _ _ _ _ _ shared => ⟨rfl, kept.assign value admitted shared⟩
  target := fun _ _ => .fail (kept.bare nofun)
  enclosed := .enclosed kept
  during := fun site => .during kept site

theorem evaluate (kept : coupling.KeptBy admits) (e : Expr) (admitted : admits (.expression e)) :
    coupling.Couples Value (FlatExecution.evaluate e) (FlatExecution.evaluate e) :=
  kept.relates.evaluate (i := ()) e admitted

theorem execute (kept : coupling.KeptBy admits) (s : Stmt) (admitted : admits (.statement s)) :
    coupling.Couples Value (FlatExecution.execute s) (FlatExecution.execute s) :=
  kept.relates.execute (i := ()) s admitted

theorem executeAll (kept : coupling.KeptBy admits) (last : Value) (body : List Stmt)
    (admitted : ∀ s ∈ body, admits (.statement s)) :
    coupling.Couples Value (FlatExecution.executeAll last body)
      (FlatExecution.executeAll last body) :=
  kept.relates.executeAll (i := ()) last body admitted

end KeptBy
end Coupling
end Scriptlet
