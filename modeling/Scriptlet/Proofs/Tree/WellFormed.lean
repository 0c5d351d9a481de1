import Scriptlet.Proofs.Grammar.Soundness
import Scriptlet.Proofs.Token.Proper

/-! Trees that can be written. They are the trees of fitting phrases and sentences over the tokens
that the scanner finds: every number is finite and has no sign, every name is a proper name, every
assignment is to a name, and no `else` could belong to a conditional further in. -/
namespace Scriptlet

/-- Whether an expression can be written. -/
def Expr.WellFormed : Expr → Prop
  | number value => value.isFinite = true ∧ Number.signBit value = false
  | identifier name => Definition.isName name.toList = true ∧ name ∉ Token.keywords
  | binary op left right => left.WellFormed ∧ right.WellFormed ∧
      (op = .assign → ∃ name, left = .identifier name)
  | _ => True

namespace Stmt

mutual

/-- Whether a statement can be written. -/
def WellFormed : Stmt → Prop
  | ifThen condition branch => condition.WellFormed ∧ branch.WellFormed
  | ifThenElse condition branch otherwise =>
    condition.WellFormed ∧ branch.WellFormed ∧ otherwise.WellFormed ∧ branch.endsOpen = false
  | expression value => value.WellFormed
  | block body => AllWellFormed body

/-- Statement by statement. -/
def AllWellFormed : List Stmt → Prop
  | [] => True
  | s :: more => s.WellFormed ∧ AllWellFormed more

end

/-- A block, and the statements in it can be written. -/
def WellFormedRoot (root : Stmt) : Prop := ∃ body, root = .block body ∧ AllWellFormed body

end Stmt

/-- A token that the scanner can find. -/
def Token.Kind.Found (kind : Token.Kind) : Prop := kind.Proper ∧ kind.Finite

theorem Phrase.wellFormed (phrase : Phrase) (fits : phrase.Fits)
    (found : ∀ kind ∈ phrase.kinds, kind.Found) : phrase.tree.WellFormed := by
  induction phrase with
  | number value =>
    obtain ⟨proper, finite⟩ := found _ (List.mem_singleton_self _)
    exact ⟨finite, proper⟩
  | identifier name => exact (found _ (List.mem_singleton_self _)).1
  | group inner ih =>
    exact ih fits fun kind among =>
      found kind (List.mem_cons_of_mem _ (List.mem_append_left _ among))
  | binary op left right leftIh rightIh =>
    obtain ⟨leftFits, rightFits, operands⟩ := fits
    refine ⟨leftIh leftFits fun kind among => found kind (List.mem_append_left _ among),
      rightIh rightFits fun kind among =>
        found kind (List.mem_append_right _ (List.mem_cons_of_mem _ among)), ?_⟩
    intro assign
    rw [if_pos assign] at operands
    exact operands
  | _ => trivial

namespace Sentence

mutual

theorem wellFormed (s : Sentence) (fits : s.Fits) (found : ∀ kind ∈ s.kinds, kind.Found) :
    s.tree.WellFormed := by
  cases s with
  | ifThen condition branch =>
    simp only [kinds, List.mem_cons, List.mem_append] at found
    exact ⟨condition.wellFormed fits.1 fun kind among => found kind (.inr (.inr (.inl among))),
      wellFormed branch fits.2 fun kind among => found kind (.inr (.inr (.inr (.inr among))))⟩
  | ifThenElse condition branch otherwise =>
    obtain ⟨conditionFits, branchFits, otherFits, shut⟩ := fits
    simp only [kinds, List.mem_cons, List.mem_append] at found
    exact ⟨condition.wellFormed conditionFits fun kind among =>
        found kind (.inr (.inr (.inl among))),
      wellFormed branch branchFits fun kind among =>
        found kind (.inr (.inr (.inr (.inr (.inl among))))),
      wellFormed otherwise otherFits fun kind among =>
        found kind (.inr (.inr (.inr (.inr (.inr (.inr among)))))), shut⟩
  | expression value =>
    exact value.wellFormed fits fun kind among => found kind (List.mem_append_left _ among)
  | block body =>
    exact allWellFormed body fits fun kind among =>
      found kind (List.mem_cons_of_mem _ (List.mem_append_left _ among))

theorem allWellFormed (body : List Sentence) (fits : AllFit body)
    (found : ∀ kind ∈ allKinds body, kind.Found) : Stmt.AllWellFormed (trees body) := by
  cases body with
  | nil => trivial
  | cons s more =>
    exact ⟨wellFormed s fits.1 fun kind among => found kind (List.mem_append_left _ among),
      allWellFormed more fits.2 fun kind among => found kind (List.mem_append_right _ among)⟩

end

end Sentence

/-- What is spelled by tokens that the scanner found. -/
theorem Spelled.found (spelled : Spelled kinds tokens rest)
    (each : ∀ token ∈ tokens, token.kind.Found) : ∀ kind ∈ kinds, kind.Found := by
  obtain ⟨used, rfl, rfl⟩ := spelled
  intro kind among
  obtain ⟨token, member, rfl⟩ := List.mem_map.mp among
  exact each token (List.mem_append_left _ member)

namespace Grammar

theorem program_wellFormed {tokens : List Token} (each : ∀ token ∈ tokens, token.kind.Found)
    (accepted : program limit tokens = .ok root) : root.WellFormedRoot := by
  obtain ⟨sentences, ending, after, fits, rfl, spelled, _⟩ := program_sound accepted
  exact ⟨_, rfl, Sentence.allWellFormed sentences fits (spelled.found each)⟩

end Grammar
end Scriptlet
