import Scriptlet.Proofs.Evaluation.Failure
import Scriptlet.Proofs.Program.RoundTrip

/-! Targets of assignments. The parser gives no tree with an assignment to anything but a name, so
the check that the interpreter makes of every target never fails in a program from source text. -/
namespace Scriptlet

/-- Whether a part of a program can be written. -/
def Part.WellFormed : Part → Prop
  | expression e => e.WellFormed
  | statement s => s.WellFormed

theorem Stmt.AllWellFormed.each {body : List Stmt} (formed : AllWellFormed body) :
    ∀ s ∈ body, s.WellFormed := by
  induction body with
  | nil => exact List.forall_mem_nil _
  | cons s rest ih => exact List.forall_mem_cons.mpr ⟨formed.1, ih formed.2⟩

theorem Part.WellFormed.inner {part : Part} (formed : part.WellFormed) :
    ∀ p ∈ part.inner, p.WellFormed := by
  cases part with
  | expression e =>
    cases e with
    | binary op left right =>
      obtain ⟨first, second, _⟩ := formed
      exact List.forall_mem_cons.mpr ⟨first, List.forall_mem_singleton.mpr second⟩
    | _ => exact List.forall_mem_nil _
  | statement s =>
    cases s with
    | expression value => exact List.forall_mem_singleton.mpr formed
    | block body => exact List.forall_mem_map.mpr (Stmt.AllWellFormed.each formed)
    | ifThen condition branch =>
      obtain ⟨test, taken⟩ := formed
      exact List.forall_mem_cons.mpr ⟨test, List.forall_mem_singleton.mpr taken⟩
    | ifThenElse condition branch otherwise =>
      obtain ⟨test, taken, other, _⟩ := formed
      exact List.forall_mem_cons.mpr ⟨test,
        List.forall_mem_cons.mpr ⟨taken, List.forall_mem_singleton.mpr other⟩⟩

/-- Every assignment of a tree that can be written is to a name, and no other operation blames a
target. -/
theorem confines_targets : Confines (fun (_ : Unit) part => part.WellFormed) id (fun _ _ => True)
    (fun cause => ∀ target, cause ≠ .invalidAssignmentTarget target) where
  inner := fun formed => formed.inner
  level := fun _ _ _ => trivial
  full := nofun
  values := fun values target same => by
    subst same
    exact values
  unbound := nofun
  target := fun {_ target right} formed other => by
    obtain ⟨_, _, named⟩ := formed
    obtain ⟨name, same⟩ := named rfl
    exact absurd same (other name)

/-- A program from source text, run in any interpreter as a program or as one block, never fails
because of the target of an assignment. -/
theorem parsed_targets_are_names (parsed : parseSource limit source = .ok root)
    (state : Interpreter) :
    (∀ e, (state.interpret root).1 = .error e →
      ∀ target, e.cause ≠ .invalidAssignmentTarget target) ∧
    ∀ e, (state.execute root).1 = .error e →
      ∀ target, e.cause ≠ .invalidAssignmentTarget target := by
  obtain ⟨body, rfl, formed⟩ := parseSource_wellFormed parsed
  constructor
  · have fails := confines_targets.executeAll (i := ()) .unit body
      (Stmt.AllWellFormed.each formed)
    exact fails.causes state trivial
  · have fails := confines_targets.execute (i := ()) (.block body) formed
    exact fails.causes state trivial

section ChainedAssignment

/-- The expression `b = c`. -/
def innerAssignment : Expr := .binary .assign (.identifier "b") (.identifier "c")

def chainedAssignment : Stmt :=
  .block [.expression (.binary .assign (.identifier "a") innerAssignment)]

/-- A target may stand in parentheses, and an assignment on the right of another one. -/
theorem chainedAssignment_parsed : parseSource 3 "(a) = b = c;" = .ok chainedAssignment := by
  have target : Definition.isName "b".toList = true ∧ "b" ∉ Token.keywords := by decide
  have value : Definition.isName "c".toList = true ∧ "c" ∉ Token.keywords := by decide
  have formed : innerAssignment.WellFormed := ⟨target, value, fun _ => ⟨"b", rfl⟩⟩
  let phrase : Phrase := .binary .assign (.group (.identifier "a")) innerAssignment.phrase
  have scanned :
      Token.Passes "(a) = b = c;".toList (Sentence.allKinds [.expression phrase]) [] := by
    refine Token.Scanned.passes ?_
    have text : "(a) = b = c;".toList = '(' :: ("a".toList ++ ')' :: ' ' ::
        (Operator.assign.symbol.toList ++ ' ' :: (innerAssignment.render.toList ++ [';']))) := by
      decide
    rw [text]
    refine .mark (by decide) rfl (by trivial) ?_
    refine .word _ (by decide) (by decide) (separate_cons (by decide) _) ?_
    refine .mark (by decide) rfl (by trivial) (.space ?_)
    refine .lexeme (Token.opens_operator .assign _) (.space ?_)
    refine (innerAssignment.scanned_render formed (separate_cons (by decide) _)).append ?_
    exact .mark (by decide) rfl (by trivial) .done
  have fits : Sentence.AllFit [.expression phrase] :=
    ⟨⟨trivial, Expr.fits_phrase _ formed, "a", rfl⟩, trivial⟩
  exact (parseSource_sentences fits scanned 3).1 (by decide)

/-- The run fails, because of a name that is not bound. -/
theorem chainedAssignment_fails : parseSource 3 "(a) = b = c;" = .ok chainedAssignment ∧
    ∃ e, ((Interpreter.new {}).interpret chainedAssignment).1 = .error e ∧
      e.cause = .unboundIdentifier "c" ∧ ∀ target, e.cause ≠ .invalidAssignmentTarget target := by
  have failed : ((Interpreter.new {}).interpret chainedAssignment).1 =
      .error ⟨.unboundIdentifier "c",
        some (.expression (.binary .assign (.identifier "a") innerAssignment))⟩ := by cbv
  obtain ⟨interprets, _⟩ := parsed_targets_are_names chainedAssignment_parsed (Interpreter.new {})
  exact ⟨chainedAssignment_parsed, _, failed, rfl, interprets _ failed⟩

end ChainedAssignment

end Scriptlet
