import Scriptlet.Proofs.Grammar.Completeness

/-! The room that reading takes is exact. A parse tree is read back where there is room for its
levels, and refused for its nesting where there is not; so whether a text is accepted under a limit
depends on a number that can be computed from its parse tree. -/
namespace Scriptlet
namespace Grammar

variable {limit room : Nat}

/-- A rule has stopped because the nesting limit was reached. -/
def TooDeep (limit : Nat) (result : Except SyntaxError α) : Prop :=
  ∃ e, result = .error e ∧ e.cause = .nestingLimit limit

theorem tooDeep_stop (tokens : List Token) :
    TooDeep limit (stop (.nestingLimit limit) tokens : Except SyntaxError α) := ⟨_, rfl, rfl⟩

theorem TooDeep.during {result : Except SyntaxError α} (deep : TooDeep limit result) (rule : Rule) :
    TooDeep limit (rule.during result) := by
  obtain ⟨e, rfl, cause⟩ := deep
  exact ⟨e.within rule, rfl, cause⟩

theorem TooDeep.bind {result : Except SyntaxError α} (deep : TooDeep limit result)
    (next : α → Except SyntaxError β) : TooDeep limit (result >>= next) := by
  obtain ⟨e, rfl, cause⟩ := deep
  exact ⟨e, rfl, cause⟩

section Expression

theorem tooDeep_of_level {p q : Precedence} {tokens : List Token} (looser : p.level ≤ q.level)
    (deep : TooDeep limit (level limit room q tokens).outcome) :
    TooDeep limit (level limit room p tokens).outcome := by
  induction p using Precedence.tightest_first with
  | primary =>
    have same : q = .primary := by cases q <;> first | rfl | contradiction
    exact same ▸ deep
  | looser p operators ih =>
    by_cases same : p.level = q.level
    · exact Precedence.level_injective same ▸ deep
    · have next := Precedence.level_tighter operators
      rw [level_eq operators]
      exact ((ih (by omega)).bind _).during _

/-- A phrase is refused by every level that has less room than the phrase takes. -/
def Refused (limit : Nat) (phrase : Phrase) : Prop :=
  ∀ room p tokens rest, p.level ≤ phrase.precedence.level → Spelled phrase.kinds tokens rest →
    room < phrase.levels → TooDeep limit (level limit room p tokens).outcome

theorem refused_group {inner : Phrase} (refused : Refused limit inner) :
    Refused limit (.group inner) := by
  intro room p tokens rest binds spelled lacking
  apply tooDeep_of_level binds
  obtain ⟨opening, after, rfl, sign, spelled⟩ := Spelled.cons_iff.mp spelled
  obtain ⟨between, content, _⟩ := Spelled.append_iff.mp spelled
  change TooDeep limit (level limit room .primary (opening :: after)).outcome
  rw [level_primary_eq, primary_group sign]
  refine TooDeep.during ?_ _
  cases room with
  | zero => exact tooDeep_stop _
  | succ room =>
    change TooDeep limit ((expression limit room after).outcome >>= _)
    rw [expression_eq]
    exact ((refused room _ _ _ (Nat.zero_le _) content (Nat.lt_of_succ_lt_succ lacking)).during
      _).bind _

theorem refused_assign {left right : Phrase} (named : left.tree = .identifier name)
    (fits : left.Fits) (target : Refused limit left) (value : Refused limit right) :
    Refused limit (.binary .assign left right) := by
  intro room p tokens rest binds spelled lacking
  apply tooDeep_of_level binds
  obtain ⟨between, first, second⟩ := Spelled.append_iff.mp spelled
  obtain ⟨token, after, rfl, sign, second⟩ := Spelled.cons_iff.mp second
  have atomic := left.precedence_of_tree_identifier named
  have free : left.chain Operator.assign.precedence = 0 :=
    left.chain_eq_zero (by rw [atomic]; decide)
  have tighter : Precedence.logicalOr.level ≤ left.precedence.level := by rw [atomic]; decide
  rw [Phrase.levels, free] at lacking
  change TooDeep limit (level limit room .assignment tokens).outcome
  rw [level_eq (by decide)]
  refine TooDeep.during ?_ _
  change TooDeep limit ((level limit room .logicalOr tokens).outcome >>= _)
  by_cases fitting : left.levels ≤ room
  · rw [(readable_complete left fits).1 room .logicalOr tokens _ tighter first fitting
      (stops_of_operator sign (by decide)), bind_ok, joined, if_pos rfl, assigned_eq _ _ _ sign,
      named]
    cases room with
    | zero => exact tooDeep_stop _
    | succ room => exact (value room _ _ _ (Nat.zero_le _) second (by omega)).bind _
  · exact (target room .logicalOr tokens _ tighter first (by omega)).bind _

theorem refused_fold {left right : Phrase} (folding : op ≠ .assign)
    (binds : op.precedence.level ≤ left.precedence.level)
    (tighter : op.precedence.level < right.precedence.level) (fits : left.Fits)
    (leftRefused : Refused limit left) (rightRefused : Refused limit right) :
    Refused limit (.binary op left right) := by
  intro room p tokens rest looser spelled lacking
  apply tooDeep_of_level looser
  have operators := op.precedence_ne_primary
  have next := Precedence.level_tighter operators
  obtain ⟨between, first, second⟩ := Spelled.append_iff.mp spelled
  obtain ⟨token, after, rfl, sign, second⟩ := Spelled.cons_iff.mp second
  rw [Phrase.levels] at lacking
  change TooDeep limit (level limit room op.precedence tokens).outcome
  by_cases fitting : left.levels ≤ room
  · rw [(readable_complete left fits).2 room op.precedence tokens _ operators
      (fun same => folding (Operator.precedence_eq_assignment.mp same)) binds first fitting
      (stops_of_operator sign (by omega)), folds_eq _ _ _ sign rfl]
    refine TooDeep.during ?_ _
    cases spent : room - left.chain op.precedence with
    | zero => exact tooDeep_stop _
    | succ less => exact (rightRefused less _ _ _ (by omega) second (by omega)).bind _
  · exact leftRefused room _ tokens _ binds first (by omega)

theorem phrase_refused (phrase : Phrase) (fits : phrase.Fits) : Refused limit phrase := by
  induction phrase with
  | group inner ih => exact refused_group (ih fits)
  | binary op left right leftIh rightIh =>
    obtain ⟨leftFits, rightFits, operands⟩ := fits
    split at operands
    · rename_i assign
      subst assign
      obtain ⟨name, named⟩ := operands
      exact refused_assign named leftFits (leftIh leftFits) (rightIh rightFits)
    · rename_i folding
      exact refused_fold folding operands.1 operands.2 leftFits (leftIh leftFits)
        (rightIh rightFits)
  | _ =>
    intro room p tokens rest binds spelled lacking
    exact absurd lacking (Nat.not_lt_zero _)

theorem expression_refused {phrase : Phrase} (fits : phrase.Fits)
    (spelled : Spelled phrase.kinds tokens rest) (lacking : room < phrase.levels) :
    TooDeep limit (expression limit room tokens).outcome := by
  rw [expression_eq]
  exact (phrase_refused phrase fits room _ _ _ (Nat.zero_le _) spelled lacking).during _

end Expression

section Statement

/-- A sentence is refused where there is less room than it takes. -/
def StatementRefused (limit : Nat) (s : Sentence) : Prop :=
  ∀ room tokens rest, Spelled s.kinds tokens rest → room < s.levels →
    TooDeep limit (statement limit room tokens).outcome

theorem refused_no_room (tokens : List Token) :
    TooDeep limit (statement limit 0 tokens).outcome := by
  rw [statement_zero]
  exact (tooDeep_stop tokens).during _

theorem refused_expression {value : Phrase} (fits : value.Fits) :
    StatementRefused limit (.expression value) := by
  intro room tokens rest spelled lacking
  obtain ⟨between, content, _⟩ := Spelled.append_iff.mp spelled
  cases room with
  | zero => exact refused_no_room tokens
  | succ room =>
    rw [statement_phrase content, expressionStatement_eq]
    exact (((expression_refused fits content (Nat.lt_of_succ_lt_succ lacking)).bind
      _).during _).during _

/-- A condition in parentheses that takes more room than there is. -/
theorem condition_refused {condition : Phrase} (fits : condition.Fits)
    (spelled : Spelled (.leftParen :: (condition.kinds ++ .rightParen :: kinds)) tokens rest)
    (lacking : room < condition.levels) :
    TooDeep limit (ifStatement limit room tokens).outcome := by
  obtain ⟨opening, first, rfl, sign, spelled⟩ := Spelled.cons_iff.mp spelled
  obtain ⟨second, content, _⟩ := Spelled.append_iff.mp spelled
  have open_ : Spelled [.leftParen] (opening :: first) first := sign ▸ .token opening first
  rw [ifStatement_eq, expect_spelled open_, bind_ok]
  exact ((expression_refused fits content lacking).bind _).during _

theorem refused_ifThen {condition : Phrase} {branch : Sentence} (fits : condition.Fits)
    (refused : StatementRefused limit branch) :
    StatementRefused limit (.ifThen condition branch) := by
  intro room tokens rest spelled lacking
  cases room with
  | zero => exact refused_no_room tokens
  | succ room =>
    simp only [Sentence.levels] at lacking
    obtain ⟨keyword, after, rfl, sign, spelled⟩ := Spelled.cons_iff.mp spelled
    rw [statement_if sign]
    refine TooDeep.during ?_ _
    by_cases fitting : condition.levels ≤ room
    · obtain ⟨first, second, third, opening, test, closing, content⟩ :=
        condition_complete limit room fits spelled fitting
      simp only [ifStatement_eq, opening, test, closing, bind_ok]
      exact ((refused room third rest content (by omega)).bind _).during _
    · exact condition_refused fits spelled (by omega)

theorem refused_ifThenElse {condition : Phrase} {branch otherwise : Sentence}
    (fits : condition.Fits) (branchFits : branch.Fits) (shut : branch.tree.endsOpen = false)
    (branchRefused : StatementRefused limit branch)
    (otherRefused : StatementRefused limit otherwise) :
    StatementRefused limit (.ifThenElse condition branch otherwise) := by
  intro room tokens rest spelled lacking
  cases room with
  | zero => exact refused_no_room tokens
  | succ room =>
    simp only [Sentence.levels] at lacking
    obtain ⟨keyword, after, rfl, sign, spelled⟩ := Spelled.cons_iff.mp spelled
    rw [statement_if sign]
    refine TooDeep.during ?_ _
    by_cases fitting : condition.levels ≤ room
    · obtain ⟨first, second, third, opening, test, closing, content⟩ :=
        condition_complete limit room fits spelled fitting
      obtain ⟨fourth, taken, other⟩ := Spelled.append_iff.mp content
      have follows := ahead_spelled other
      obtain ⟨_, last, rfl, _, other⟩ := Spelled.cons_iff.mp other
      simp only [ifStatement_eq, opening, test, closing, bind_ok]
      refine TooDeep.during ?_ _
      by_cases branchFitting : branch.levels ≤ room
      · rw [statement_complete branch branchFits room third _ taken branchFitting
          fun ends => by rw [shut] at ends; contradiction, bind_ok, if_pos follows]
        exact (otherRefused room last rest other (by omega)).bind _
      · exact (branchRefused room third _ taken (by omega)).bind _
    · exact condition_refused fits spelled (by omega)

/-- Sentences in a row are refused where there is less room than one of them takes. -/
def AllRefused (limit : Nat) (body : List Sentence) : Prop :=
  ∀ room closing found tokens bound rest (within : tokens.length < bound),
    closing.beginsSentence = false → Spelled (Sentence.allKinds body) tokens rest →
    room < Sentence.mostLevels body →
    TooDeep limit (statements limit room closing found tokens within).outcome

theorem allRefused_cons {s : Sentence} (fits : s.Fits) (refused : StatementRefused limit s)
    (more : AllRefused limit body) : AllRefused limit (s :: body) := by
  intro room closing found tokens bound rest within ends spelled lacking
  simp only [Sentence.mostLevels] at lacking
  obtain ⟨between, first, second⟩ := Spelled.append_iff.mp spelled
  rw [statements_eq _ _ _ (not_atClose first ends)]
  by_cases fitting : s.levels ≤ room
  · have apart : ahead between ≠ some .elseKeyword := by
      cases body with
      | nil => exact absurd lacking (by simp only [Sentence.mostLevels]; omega)
      | cons next _ =>
        obtain ⟨_, nextFirst, _⟩ := Spelled.append_iff.mp second
        exact not_else nextFirst
    rw [statement_complete s fits room tokens between first fitting fun _ => apart, bind_ok]
    exact more _ _ _ _ _ _ _ ends second (by omega)
  · exact (refused room tokens between first (by omega)).bind _

theorem refused_block {body : List Sentence} (refused : AllRefused limit body) :
    StatementRefused limit (.block body) := by
  intro room tokens rest spelled lacking
  obtain ⟨opening, after, rfl, sign, spelled⟩ := Spelled.cons_iff.mp spelled
  obtain ⟨between, content, _⟩ := Spelled.append_iff.mp spelled
  cases room with
  | zero => exact refused_no_room _
  | succ room =>
    rw [statement_block sign, block_eq]
    exact (((refused room _ _ _ _ _ _ rfl content (Nat.lt_of_succ_lt_succ lacking)).bind
      _).during _).during _

mutual

theorem statement_refused (s : Sentence) (fits : s.Fits) : StatementRefused limit s :=
  match s with
  | .ifThen _ branch => refused_ifThen fits.1 (statement_refused branch fits.2)
  | .ifThenElse _ branch otherwise =>
    refused_ifThenElse fits.1 fits.2.1 fits.2.2.2 (statement_refused branch fits.2.1)
      (statement_refused otherwise fits.2.2.1)
  | .expression _ => refused_expression fits
  | .block body => refused_block (statements_refused body fits)

theorem statements_refused (body : List Sentence) (fits : Sentence.AllFit body) :
    AllRefused limit body :=
  match body with
  | [] => by
    intro room closing found tokens bound rest within _ _ lacking
    exact absurd lacking (Nat.not_lt_zero _)
  | s :: more =>
    allRefused_cons fits.1 (statement_refused s fits.1) (statements_refused more fits.2)

end

end Statement

/-- A program of fitting sentences is accepted exactly under the limits that leave the room it
takes. -/
theorem program_accepts_iff {body : List Sentence} (fits : Sentence.AllFit body)
    (spelled : Spelled (Sentence.allKinds body) tokens (ending :: after))
    (sign : ending.kind = .endOfInput) :
    (Sentence.mostLevels body ≤ limit → program limit tokens = .ok (.block (Sentence.trees body))) ∧
      (limit < Sentence.mostLevels body → TooDeep limit (program limit tokens)) := by
  refine ⟨program_complete fits spelled sign, fun lacking => ?_⟩
  rw [program_eq]
  exact ((statements_refused body fits limit _ _ _ _ _ _ rfl spelled lacking).bind _).during _

end Grammar
end Scriptlet
