import Mathlib.Tactic.Ring
import Scriptlet.Proofs.Program.RoundTrip

/-! How deep parsed trees are. A chain of operators gives its levels of nesting back when it ends,
so each of the six strengths that group to the left can use up the whole room once, and then a
parenthesis around all of it starts over with one level less. The depth of an expression is
therefore bounded by a square of the room, and there are expressions that are that deep. -/
namespace Scriptlet

/-- The binary nodes on the longest path from the root of an expression to a leaf. -/
def Expr.depth : Expr → Nat
  | binary _ left right => max left.depth right.depth + 1
  | _ => 0

section Bound

/-- The greatest depth, within some room, of what binds at least as tightly as `p`: that of a
parenthesis, which leaves one level less, and a chain of operators for every strength from `p` on. -/
def reach (room : Nat) (p : Precedence) : Nat := 3 * (room - 1) * room + (7 - p.level) * room

theorem reach_logicalOr (room : Nat) : reach room .logicalOr = 3 * room * (room + 1) := by
  cases room with
  | zero => rfl
  | succ room =>
    simp only [reach, Precedence.level, Nat.add_sub_cancel]
    ring

theorem reach_tighter {p : Precedence} (operators : p ≠ .primary) (room : Nat) :
    reach room p = reach room p.tighter + room := by
  have next := Precedence.level_tighter operators
  have tightest := p.tighter.level_le_primary
  have strengths : 7 - p.level = 7 - p.tighter.level + 1 := by
    rw [Precedence.level] at tightest
    omega
  rw [reach, reach, strengths, Nat.succ_mul (7 - p.tighter.level), Nat.add_assoc]

theorem reach_le {p q : Precedence} (looser : p.level ≤ q.level) (room : Nat) :
    reach room q ≤ reach room p :=
  Nat.add_le_add_left (Nat.mul_le_mul_right room (Nat.sub_le_sub_left looser 7)) _

/-- What is read one level further in is at most as deep as a parenthesis. -/
theorem reach_of_less {less room : Nat} (further : less < room) :
    reach less .logicalOr ≤ reach room .primary := by
  have wider : less + 1 ≤ room := further
  have inner : less ≤ room - 1 := by omega
  calc reach less .logicalOr = 3 * less * (less + 1) := reach_logicalOr less
    _ ≤ 3 * (room - 1) * room := Nat.mul_le_mul (Nat.mul_le_mul_left 3 inner) wider
    _ ≤ reach room .primary := Nat.le_add_right ..

namespace Phrase

theorem chain_le_levels (phrase : Phrase) (p : Precedence) : phrase.chain p ≤ phrase.levels := by
  cases phrase with
  | binary op left right =>
    simp only [chain, levels]
    split
    · rename_i same
      rw [same]
      omega
    · exact Nat.zero_le _
  | _ => exact Nat.zero_le _

/-- A phrase that is no assignment goes beyond what is tighter by the operators of its chain. -/
def ChainBounded (phrase : Phrase) : Prop :=
  ∀ room, phrase.levels ≤ room → phrase.precedence ≠ .assignment →
    phrase.tree.depth ≤ reach room phrase.precedence.tighter + phrase.chain phrase.precedence

/-- Within some room, no phrase is deeper than a chain of the loosest operators can be. -/
def Bounded (phrase : Phrase) : Prop :=
  ∀ room, phrase.levels ≤ room → phrase.tree.depth ≤ reach room .logicalOr

variable {left right : Phrase}

/-- An operand of a chain is bounded by the strength that its place requires. -/
theorem ChainBounded.operand (bounded : ChainBounded left) (fitting : left.levels ≤ room)
    (folding : left.precedence ≠ .assignment) (binds : p.level ≤ left.precedence.level) :
    left.tree.depth ≤ reach room p := by
  have depth := bounded room fitting folding
  by_cases atomic : left.precedence = .primary
  · have single : left.chain .primary = 0 := by
      cases left with
      | binary op _ _ => exact absurd atomic op.precedence_ne_primary
      | _ => rfl
    rw [atomic, single, Precedence.tighter] at depth
    exact Nat.le_trans depth (reach_le p.level_le_primary room)
  · have own := reach_tighter atomic room
    have joined := left.chain_le_levels left.precedence
    have looser := reach_le binds room
    omega

theorem ChainBounded.bounded (bounded : ChainBounded left)
    (folding : left.precedence ≠ .assignment) :
    Bounded left := by
  intro room fitting
  refine bounded.operand fitting folding ?_
  revert folding
  cases left.precedence <;> simp [Precedence.level]

/-- Along a chain every operator adds one to the depth of what is on its left; what is on its right
is read further in. -/
theorem chainBounded_fold (folding : op ≠ .assign)
    (binds : op.precedence.level ≤ left.precedence.level) (leftBounded : ChainBounded left)
    (rightBounded : Bounded right) : ChainBounded (.binary op left right) := by
  intro room fitting _
  have operators := op.precedence_ne_primary
  have noAssignment : op.precedence ≠ .assignment := fun same =>
    folding (Operator.precedence_eq_assignment.mp same)
  have leftFolding : left.precedence ≠ .assignment := by
    intro same
    rw [same] at binds
    exact noAssignment (Precedence.level_injective (Nat.le_zero.mp binds))
  simp only [levels] at fitting
  have leftDepth : left.tree.depth ≤
      reach room op.precedence.tighter + left.chain op.precedence := by
    by_cases same : left.precedence = op.precedence
    · have depth := leftBounded room (by omega) leftFolding
      rwa [same] at depth
    · have apart : op.precedence.level ≠ left.precedence.level := fun level =>
        same (Precedence.level_injective level).symm
      have next := Precedence.level_tighter operators
      rw [left.chain_eq_zero same]
      exact leftBounded.operand (by omega) leftFolding (by omega)
  have rightDepth : right.tree.depth ≤ reach room op.precedence.tighter := calc
    right.tree.depth ≤ reach right.levels .logicalOr := rightBounded _ (Nat.le_refl _)
    _ ≤ reach room .primary := reach_of_less (by omega)
    _ ≤ reach room op.precedence.tighter := reach_le (Precedence.level_le_primary _) room
  change max left.tree.depth right.tree.depth + 1 ≤
    reach room op.precedence.tighter + (binary op left right).chain op.precedence
  simp only [chain, if_true]
  omega

theorem chainBounded_atom {phrase : Phrase} (leaf : phrase.tree.depth = 0) :
    ChainBounded phrase := by
  intro room _ _
  rw [leaf]
  exact Nat.zero_le _

theorem bounded (phrase : Phrase) (fits : phrase.Fits) :
    ChainBounded phrase ∧ Bounded phrase := by
  induction phrase with
  | group inner ih =>
    have chained : ChainBounded (.group inner) := by
      intro room fitting _
      have depth := (ih fits).2 _ (Nat.le_refl _)
      exact Nat.le_trans depth (reach_of_less fitting)
    exact ⟨chained, chained.bounded fun same => by contradiction⟩
  | binary op left right leftIh rightIh =>
    obtain ⟨leftFits, rightFits, operands⟩ := fits
    split at operands
    · rename_i assign
      subst assign
      obtain ⟨name, named⟩ := operands
      refine ⟨fun _ _ folding => absurd rfl folding, ?_⟩
      intro room fitting
      simp only [levels] at fitting
      have further : right.levels < room := by omega
      have value := Nat.le_trans ((rightIh rightFits).2 _ (Nat.le_refl _)) (reach_of_less further)
      have one : reach room .primary + room ≤ reach room .logicalOr :=
        Nat.le_trans (Nat.le_of_eq (reach_tighter (p := .multiplicative) (by decide) room).symm)
          (reach_le (by decide) room)
      simp only [tree, named, Expr.depth]
      omega
    · rename_i folding
      have chained := chainBounded_fold folding operands.1 (leftIh leftFits).1 (rightIh rightFits).2
      refine ⟨chained, chained.bounded ?_⟩
      exact fun same => folding (Operator.precedence_eq_assignment.mp same)
  | _ => exact ⟨chainBounded_atom rfl, (chainBounded_atom rfl).bounded fun same => by contradiction⟩

theorem depth_le {phrase : Phrase} (fits : phrase.Fits) (fitting : phrase.levels ≤ room) :
    phrase.tree.depth ≤ 3 * room * (room + 1) :=
  reach_logicalOr room ▸ (phrase.bounded fits).2 room fitting

end Phrase

namespace Stmt

/-- The statements directly inside a statement: its branches, or the members of a block. -/
def parts : Stmt → List Stmt
  | ifThen _ branch => [branch]
  | ifThenElse _ branch otherwise => [branch, otherwise]
  | expression _ => []
  | block body => body

/-- The expressions that belong to a statement itself. -/
def expressions : Stmt → List Expr
  | ifThen condition _ | ifThenElse condition _ _ => [condition]
  | expression value => [value]
  | block _ => []

/-- A statement inside a root, at a nesting level; the members of a root block are at level one. -/
inductive Nested (root : Stmt) : Nat → Stmt → Prop where
  | root : Nested root 0 root
  | part : Nested root k s → t ∈ s.parts → Nested root (k + 1) t

end Stmt

namespace Sentence

theorem levels_pos (s : Sentence) : 0 < s.levels := by
  cases s <;> exact Nat.succ_pos _

theorem exists_of_mem_trees {body : List Sentence} (fits : AllFit body) (inside : s ∈ trees body) :
    ∃ sentence : Sentence, sentence.Fits ∧ sentence.tree = s ∧ sentence.levels ≤ mostLevels body := by
  induction body with
  | nil => contradiction
  | cons first more ih =>
    rw [trees, List.mem_cons] at inside
    rcases inside with rfl | inside
    · exact ⟨first, fits.1, rfl, Nat.le_max_left ..⟩
    · obtain ⟨sentence, fits, tree, levels⟩ := ih fits.2 inside
      exact ⟨sentence, fits, tree, Nat.le_trans levels (Nat.le_max_right ..)⟩

/-- A statement directly inside another one takes a level less. -/
theorem exists_part {s : Sentence} (fits : s.Fits) (inside : t ∈ s.tree.parts) :
    ∃ sentence : Sentence, sentence.Fits ∧ sentence.tree = t ∧ sentence.levels < s.levels := by
  cases s with
  | ifThen condition branch =>
    cases List.mem_singleton.mp inside
    refine ⟨branch, fits.2, rfl, ?_⟩
    simp only [levels]
    omega
  | ifThenElse condition branch otherwise =>
    obtain ⟨_, branchFits, otherFits, _⟩ := fits
    simp only [tree, Stmt.parts, List.mem_cons, List.not_mem_nil, or_false] at inside
    rcases inside with rfl | rfl
    · refine ⟨branch, branchFits, rfl, ?_⟩
      simp only [levels]
      omega
    · refine ⟨otherwise, otherFits, rfl, ?_⟩
      simp only [levels]
      omega
  | expression value => contradiction
  | block body =>
    obtain ⟨sentence, fits, tree, least⟩ := exists_of_mem_trees fits inside
    exact ⟨sentence, fits, tree, Nat.lt_succ_of_le least⟩

/-- An expression of a statement takes a level less than the statement. -/
theorem exists_phrase {s : Sentence} (fits : s.Fits) (inside : e ∈ s.tree.expressions) :
    ∃ phrase : Phrase, phrase.Fits ∧ phrase.tree = e ∧ phrase.levels < s.levels := by
  cases s with
  | ifThen condition branch =>
    cases List.mem_singleton.mp inside
    refine ⟨condition, fits.1, rfl, ?_⟩
    simp only [levels]
    omega
  | ifThenElse condition branch otherwise =>
    cases List.mem_singleton.mp inside
    refine ⟨condition, fits.1, rfl, ?_⟩
    simp only [levels]
    omega
  | expression value =>
    cases List.mem_singleton.mp inside
    exact ⟨value, fits, rfl, Nat.lt_succ_self _⟩
  | block body => contradiction

/-- Every level of nesting inside a root leaves one level less. -/
theorem exists_nested {s : Sentence} (fits : s.Fits) (nested : s.tree.Nested k t) :
    ∃ sentence : Sentence, sentence.Fits ∧ sentence.tree = t ∧ sentence.levels + k ≤ s.levels := by
  induction nested with
  | root => exact ⟨s, fits, rfl, Nat.le_refl _⟩
  | part _ inside ih =>
    obtain ⟨outer, outerFits, rfl, outerLevels⟩ := ih
    obtain ⟨sentence, fits, tree, less⟩ := exists_part outerFits inside
    exact ⟨sentence, fits, tree, by omega⟩

end Sentence

theorem Grammar.program_nested (read : program limit tokens = .ok root)
    (nested : root.Nested k s) :
    k ≤ limit ∧ ∀ e ∈ s.expressions, e.depth ≤ 3 * (limit - k) * (limit - k + 1) := by
  obtain ⟨body, _, _, fits, rfl, _, _, most⟩ := program_sound read
  have whole : (Sentence.block body).Fits := fits
  obtain ⟨sentence, sentenceFits, rfl, levels⟩ := Sentence.exists_nested whole nested
  have positive := sentence.levels_pos
  simp only [Sentence.levels] at levels
  refine ⟨by omega, ?_⟩
  intro e inside
  obtain ⟨phrase, phraseFits, rfl, less⟩ := Sentence.exists_phrase sentenceFits inside
  exact Phrase.depth_le phraseFits (by omega)

end Bound

section Deepest

namespace Expr

/-- Joins a name to the right of an expression, again and again. -/
def joined (op : Operator) (e : Expr) : Nat → Expr
  | 0 => e
  | n + 1 => .binary op (e.joined op n) (.identifier "a")

/-- One operator of every strength that groups to the left, tightest first. -/
def ladder : List Operator := [.times, .plus, .less, .equal, .and, .or]

/-- The deepest expression that can be read within some room: around the one for a level less, a
chain of every strength that is as long as the room allows. -/
def deepest : Nat → Expr
  | 0 => .identifier "a"
  | room + 1 => ladder.foldl (fun e op => e.joined op (room + 1)) (deepest room)

theorem depth_joined (op : Operator) (e : Expr) (n : Nat) :
    (e.joined op n).depth = e.depth + n := by
  induction n with
  | zero => rfl
  | succ n ih => simp [joined, depth, ih, Nat.add_assoc]

theorem depth_ladder (ops : List Operator) (e : Expr) (n : Nat) :
    (ops.foldl (fun e op => e.joined op n) e).depth = e.depth + ops.length * n := by
  induction ops generalizing e with
  | nil => simp
  | cons op more ih =>
    rw [List.foldl_cons, ih, depth_joined, List.length_cons]
    ring

theorem depth_deepest (room : Nat) : (deepest room).depth = 3 * room * (room + 1) := by
  induction room with
  | zero => rfl
  | succ room ih =>
    rw [deepest, depth_ladder, ih]
    simp only [ladder, List.length_cons, List.length_nil]
    ring

example : (deepest 1).render = "a * a + a < a == a && a || a" ∧ (deepest 1).depth = 6 := by decide

theorem wellFormed_joined {e : Expr} (formed : e.WellFormed) (folding : op ≠ .assign) (n : Nat) :
    (e.joined op n).WellFormed := by
  induction n with
  | zero => exact formed
  | succ n ih => exact ⟨ih, ⟨by decide, by decide⟩, fun assign => absurd assign folding⟩

theorem wellFormed_deepest (room : Nat) : (deepest room).WellFormed := by
  induction room with
  | zero => exact ⟨by decide, by decide⟩
  | succ room ih =>
    rw [deepest]
    refine List.foldlRecOn ladder _ ih ?_
    intro e formed op among
    refine wellFormed_joined formed ?_ _
    rintro rfl
    contradiction

theorem phrase_joined (op : Operator) (e : Expr) (n : Nat) (folding : op ≠ .assign) :
    (e.joined op (n + 1)).phrase =
      .binary op ((e.joined op n).phrase.grouped op.precedence) (.identifier "a") := by
  have sides : operandPrecedence op = (op.precedence, op.precedence.tighter) :=
    if_neg (by simpa [Operator.groupsRight] using folding)
  have name : (identifier "a").phrase.grouped op.precedence.tighter = .identifier "a" :=
    if_neg (Nat.not_lt.mpr (Precedence.level_le_primary _))
  rw [joined, phrase, sides, name]

/-- The left operand in a chain is a chain with one operator less, without parentheses. Its first
operand is put in parentheses if it binds more loosely, and it is no chain of the same strength. -/
theorem chain_joined {e : Expr} (differs : e.precedence ≠ op.precedence) (folding : op ≠ .assign)
    (n : Nat) :
    ((e.joined op n).phrase.grouped op.precedence).chain op.precedence = n ∧
      ((e.joined op n).phrase.grouped op.precedence).levels ≤
        max (e.phrase.grouped op.precedence).levels n := by
  induction n with
  | zero =>
    refine ⟨?_, Nat.le_max_left ..⟩
    apply Phrase.chain_eq_zero
    rw [joined, Phrase.grouped]
    split
    · exact op.precedence_ne_primary.symm
    · rwa [precedence_phrase]
  | succ n ih =>
    obtain ⟨chain, levels⟩ := ih
    have bare : (e.joined op (n + 1)).phrase.grouped op.precedence =
        .binary op ((e.joined op n).phrase.grouped op.precedence) (.identifier "a") := by
      rw [phrase_joined op e n folding]
      exact if_neg (Nat.lt_irrefl _)
    rw [bare]
    constructor
    · simp only [Phrase.chain, if_true, chain]
    · simp only [Phrase.levels, chain]
      omega

/-- A chain that is no longer than the room takes no more than the room, if its first operand
does not. -/
theorem levels_joined {e : Expr} (differs : e.precedence ≠ op.precedence) (folding : op ≠ .assign)
    (fitting : (e.phrase.grouped op.precedence).levels ≤ n + 1) :
    (e.joined op (n + 1)).phrase.levels ≤ n + 1 := by
  obtain ⟨chain, levels⟩ := chain_joined differs folding n
  simp only [phrase_joined op e n folding, Phrase.levels, chain]
  omega

/-- Chains of looser and looser operators need no parentheses. -/
theorem levels_ladder (ops : List Operator) {e : Expr} (folding : .assign ∉ ops)
    (looser : (e.precedence :: ops.map Operator.precedence).Pairwise fun p q => q.level < p.level)
    (fitting : e.phrase.levels ≤ n + 1) :
    (ops.foldl (fun e op => e.joined op (n + 1)) e).phrase.levels ≤ n + 1 := by
  induction ops generalizing e with
  | nil => exact fitting
  | cons op more ih =>
    rw [List.mem_cons, not_or] at folding
    rw [List.map_cons, List.pairwise_cons] at looser
    obtain ⟨below, looser⟩ := looser
    have less := below op.precedence List.mem_cons_self
    refine ih folding.2 looser (levels_joined ?_ (Ne.symm folding.1) ?_)
    · intro same
      rw [same] at less
      exact Nat.lt_irrefl _ less
    · rw [Phrase.grouped, precedence_phrase, if_neg (Nat.lt_asymm less)]
      exact fitting

theorem levels_deepest (room : Nat) : (deepest room).phrase.levels ≤ room := by
  induction room with
  | zero => exact Nat.le_refl 0
  | succ room ih =>
    have loose : (deepest room).precedence ≠ Operator.times.precedence := by
      cases room with
      | zero => decide
      | succ less => exact fun same => by contradiction
    have group : ((deepest room).phrase.grouped Operator.times.precedence).levels ≤ room + 1 := by
      rw [Phrase.grouped]
      split
      · exact Nat.succ_le_succ ih
      · exact Nat.le_succ_of_le ih
    have looser : (Operator.times.precedence :: ladder.tail.map Operator.precedence).Pairwise
        fun p q => q.level < p.level := by decide
    exact levels_ladder ladder.tail (by decide) looser (levels_joined loose (by decide) group)

end Expr

end Deepest

/-- The nesting limit bounds how deep every parsed tree is: how far down its statements are, and
how deep the expressions of a statement can be with the levels that are left there. The bound for
expressions is reached under every limit. -/
theorem depth_within_limit :
    (∀ limit tokens root, Grammar.program limit tokens = .ok root →
      ∀ k s, root.Nested k s →
        k ≤ limit ∧ ∀ e ∈ s.expressions, e.depth ≤ 3 * (limit - k) * (limit - k + 1)) ∧
    (∀ limit tokens e, Grammar.singleExpression limit tokens = .ok e →
      e.depth ≤ 3 * limit * (limit + 1)) ∧
    ∀ limit, ∃ source e, parseExpression limit source = .ok e ∧
      e.depth = 3 * limit * (limit + 1) := by
  refine ⟨?_, ?_, ?_⟩
  · intro limit tokens root read k s nested
    exact Grammar.program_nested read nested
  · intro limit tokens e read
    obtain ⟨phrase, _, _, fits, rfl, _, _, fitting⟩ := Grammar.singleExpression_sound read
    exact Phrase.depth_le fits fitting
  · intro limit
    have read := Expr.parseExpression_render (Expr.wellFormed_deepest limit)
      (Expr.levels_deepest limit)
    exact ⟨_, _, read, Expr.depth_deepest limit⟩

end Scriptlet
