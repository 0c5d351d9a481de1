import Scriptlet.Proofs.Grammar.Soundness

/-! Every parse tree that fits is read back, given the room it takes and a token after it that
does not go on with it. A chain of operators is read from its leftmost operand on, so the induction
over phrases also says how far reading the left part of a chain has come. -/
namespace Scriptlet
namespace Grammar

variable {limit room : Nat}

theorem expect_spelled {tokens rest : List Token} (spelled : Spelled [kind] tokens rest) :
    (expect kind tokens).outcome = .ok ((), rest) := by
  obtain ⟨token, after, rfl, rfl, ended⟩ := Spelled.cons_iff.mp spelled
  obtain rfl := Spelled.nil_iff.mp ended
  rw [expect_eq, if_pos (ahead_cons ..)]
  rfl

section Expression

theorem level_of_tighter {p : Precedence} (operators : p ≠ .primary) (stops : Stops p rest)
    (read : (level limit room p.tighter tokens).outcome = .ok (e, rest)) :
    (level limit room p tokens).outcome = .ok (e, rest) := by
  rw [level_eq operators, read, bind_ok, joined]
  split
  · rename_i assignment
    subst assignment
    rw [assigned_stops]
    · rfl
    · intro sign
      exact absurd (stops _ sign) (Nat.not_lt_zero _)
  · rw [folds_stops]
    · rfl
    · intro op sign same
      exact absurd (stops op sign) (by rw [same]; exact Nat.lt_irrefl _)

/-- What a level reads up to where a looser one stops too, the looser one reads. -/
theorem level_of_level {p q : Precedence} (looser : p.level ≤ q.level) (stops : Stops p rest)
    (read : (level limit room q tokens).outcome = .ok (e, rest)) :
    (level limit room p tokens).outcome = .ok (e, rest) := by
  induction p using Precedence.tightest_first with
  | primary =>
    have same : q = .primary := by cases q <;> first | rfl | contradiction
    exact same ▸ read
  | looser p operators ih =>
    by_cases same : p.level = q.level
    · exact Precedence.level_injective same ▸ read
    · have next := Precedence.level_tighter operators
      exact level_of_tighter operators stops
        (ih (by omega) (stops.looser (by omega)))

/-- A phrase is read in whole by every level that is no tighter. -/
def Readable (limit : Nat) (phrase : Phrase) : Prop :=
  ∀ room p tokens rest, p.level ≤ phrase.precedence.level → Spelled phrase.kinds tokens rest →
    phrase.levels ≤ room → Stops p rest →
    (level limit room p tokens).outcome = .ok (phrase.tree, rest)

/-- After a phrase has been read as the left part of a chain, the level goes on with what follows
it; the operators of the phrase hold their levels. -/
def Chained (limit : Nat) (phrase : Phrase) : Prop :=
  ∀ room p tokens rest, p ≠ .primary → p ≠ .assignment → p.level ≤ phrase.precedence.level →
    Spelled phrase.kinds tokens rest → phrase.levels ≤ room → Stops p.tighter rest →
    (level limit room p tokens).outcome =
      (Rule.level p).during (folds limit (room - phrase.chain p) p phrase.tree rest).outcome

/-- A single operand is the left part of an empty chain. -/
theorem level_operand {p : Precedence} (operators : p ≠ .primary) (folding : p ≠ .assignment)
    (readable : Readable limit phrase) (tighter : p.level < phrase.precedence.level)
    (spelled : Spelled phrase.kinds tokens rest) (fitting : phrase.levels ≤ room)
    (stops : Stops p.tighter rest) :
    (level limit room p tokens).outcome =
      (Rule.level p).during (folds limit (room - phrase.chain p) p phrase.tree rest).outcome := by
  have next := Precedence.level_tighter operators
  have free : phrase.chain p = 0 :=
    phrase.chain_eq_zero fun same => by rw [same] at tighter; omega
  rw [level_eq operators, readable _ _ _ _ (by omega) spelled fitting stops, bind_ok, joined,
    if_neg folding, free, Nat.sub_zero]

theorem readable_of_primary {phrase : Phrase} (atomic : phrase.precedence = .primary)
    (read : ∀ room tokens rest, Spelled phrase.kinds tokens rest → phrase.levels ≤ room →
      (primary limit room tokens).outcome = .ok (phrase.tree, rest)) :
    Readable limit phrase := by
  intro room p tokens rest binds spelled fitting stops
  apply level_of_level binds stops
  rw [atomic, level_primary_eq, read _ _ _ spelled fitting]
  rfl

theorem chained_of_primary {phrase : Phrase} (atomic : phrase.precedence = .primary)
    (readable : Readable limit phrase) : Chained limit phrase := by
  intro room p tokens rest operators folding binds spelled fitting stops
  refine level_operand operators folding readable ?_ spelled fitting stops
  rw [atomic] at binds ⊢
  exact Nat.lt_of_le_of_ne binds fun same => operators (Precedence.level_injective same)

theorem readable_atom {phrase : Phrase} (single : phrase.kinds = [kind])
    (atom : atom? kind = some phrase.tree) (atomic : phrase.precedence = .primary) :
    Readable limit phrase := by
  apply readable_of_primary atomic
  intro room tokens rest spelled _
  obtain ⟨token, after, rfl, rfl, ended⟩ := Spelled.cons_iff.mp (single ▸ spelled)
  obtain rfl := Spelled.nil_iff.mp ended
  exact primary_atom atom

theorem expression_of_readable (readable : Readable limit phrase)
    (spelled : Spelled phrase.kinds tokens rest) (fitting : phrase.levels ≤ room)
    (stops : Stops .assignment rest) :
    (expression limit room tokens).outcome = .ok (phrase.tree, rest) := by
  rw [expression_eq, readable _ _ _ _ (Nat.zero_le _) spelled fitting stops]
  rfl

theorem stops_of_kind {token : Token} (other : ∀ op, token.kind ≠ .operator op) :
    Stops p (token :: rest) := stops_of_ahead fun op sign => other op (Option.some.inj sign)

theorem readable_group {inner : Phrase} (readable : Readable limit inner) :
    Readable limit (.group inner) := by
  apply readable_of_primary rfl
  intro room tokens rest spelled fitting
  obtain ⟨opening, after, rfl, sign, spelled⟩ := Spelled.cons_iff.mp spelled
  obtain ⟨between, content, closing⟩ := Spelled.append_iff.mp spelled
  obtain ⟨token, last, rfl, close, _⟩ := Spelled.cons_iff.mp closing
  rw [primary_group sign]
  cases room with
  | zero => exact absurd fitting (Nat.not_succ_le_zero _)
  | succ room =>
    have whole : (expression limit room after).outcome = .ok (inner.tree, token :: last) :=
      expression_of_readable readable content (Nat.le_of_succ_le_succ fitting)
        (stops_of_kind fun op other => by rw [close] at other; contradiction)
    simp only [whole, bind_ok, expect_spelled closing]
    rfl

/-- The operator that joins two phrases ends the left one. -/
theorem stops_of_operator {token : Token} (sign : token.kind = .operator op)
    (looser : op.precedence.level < p.level) : Stops p (token :: rest) := by
  intro other same
  rw [ahead_cons, sign] at same
  cases same
  exact looser

theorem readable_assign {left right : Phrase} (named : left.tree = .identifier name)
    (target : Readable limit left) (value : Readable limit right) :
    Readable limit (.binary .assign left right) := by
  intro room p tokens rest binds spelled fitting stops
  apply level_of_level binds stops
  obtain ⟨between, first, second⟩ := Spelled.append_iff.mp spelled
  obtain ⟨token, after, rfl, sign, second⟩ := Spelled.cons_iff.mp second
  have loose : p = .assignment := Precedence.level_injective (Nat.le_zero.mp binds)
  subst loose
  simp only [Phrase.levels] at fitting
  have atomic := left.precedence_of_tree_identifier named
  have targetRead := target room .logicalOr tokens _ (by rw [atomic]; decide) first (by omega)
    (stops_of_operator sign (by decide))
  change (level limit room .assignment tokens).outcome = _
  rw [level_eq (by decide)]
  change Rule.during _ ((level limit room .logicalOr tokens).outcome >>= _) = _
  rw [targetRead, bind_ok, joined, if_pos rfl, assigned_eq _ _ _ sign, named]
  cases room with
  | zero => omega
  | succ room =>
    have valueRead := value room .assignment after rest (Nat.zero_le _) second (by omega) stops
    simp only [valueRead, bind_ok, Rule.during_ok, Phrase.tree, named]

/-- An operator joins its right operand to the chain before it and holds one level more. -/
theorem chain_binary {left right : Phrase} (folding : op ≠ .assign)
    (binds : op.precedence.level ≤ left.precedence.level)
    (tighter : op.precedence.level < right.precedence.level)
    (chained : Chained limit left) (operand : Readable limit right)
    (spelled : Spelled (Phrase.binary op left right).kinds tokens rest)
    (fitting : (Phrase.binary op left right).levels ≤ room)
    (stops : Stops op.precedence.tighter rest) :
    (level limit room op.precedence tokens).outcome =
      (Rule.level op.precedence).during
        (folds limit (room - (left.chain op.precedence + 1)) op.precedence
          (.binary op left.tree right.tree) rest).outcome := by
  have operators := op.precedence_ne_primary
  have next := Precedence.level_tighter operators
  obtain ⟨between, first, second⟩ := Spelled.append_iff.mp spelled
  obtain ⟨token, after, rfl, sign, second⟩ := Spelled.cons_iff.mp second
  simp only [Phrase.levels] at fitting
  have leftRead := chained room op.precedence tokens _ operators
    (fun same => folding (Operator.precedence_eq_assignment.mp same)) binds first (by omega)
    (stops_of_operator sign (by omega))
  obtain ⟨less, spent⟩ : ∃ less, room - left.chain op.precedence = less + 1 :=
    ⟨room - left.chain op.precedence - 1, by omega⟩
  have rightRead := operand less op.precedence.tighter after rest (by omega) second (by omega) stops
  have remaining : room - (left.chain op.precedence + 1) = less := by omega
  rw [leftRead, spent, folds_eq _ _ _ sign rfl, remaining]
  simp only [rightRead, bind_ok]

theorem readable_complete (phrase : Phrase) (fits : phrase.Fits) :
    Readable limit phrase ∧ Chained limit phrase := by
  induction phrase with
  | number value =>
    have readable : Readable limit (.number value) := readable_atom rfl rfl rfl
    exact ⟨readable, chained_of_primary rfl readable⟩
  | string value =>
    have readable : Readable limit (.string value) := readable_atom rfl rfl rfl
    exact ⟨readable, chained_of_primary rfl readable⟩
  | boolean value =>
    have readable : Readable limit (.boolean value) := readable_atom rfl rfl rfl
    exact ⟨readable, chained_of_primary rfl readable⟩
  | identifier name =>
    have readable : Readable limit (.identifier name) := readable_atom rfl rfl rfl
    exact ⟨readable, chained_of_primary rfl readable⟩
  | group inner ih =>
    have readable := readable_group (ih fits).1
    exact ⟨readable, chained_of_primary rfl readable⟩
  | binary op left right leftIh rightIh =>
    obtain ⟨leftFits, rightFits, operands⟩ := fits
    obtain ⟨leftReadable, leftChained⟩ := leftIh leftFits
    obtain ⟨rightReadable, _⟩ := rightIh rightFits
    split at operands
    · rename_i assign
      subst assign
      obtain ⟨name, named⟩ := operands
      refine ⟨readable_assign named leftReadable rightReadable, ?_⟩
      intro room p tokens rest operators folding binds
      exact absurd (Precedence.level_injective (Nat.le_zero.mp binds)) folding
    · rename_i folding
      have operators := op.precedence_ne_primary
      have next := Precedence.level_tighter operators
      have readable : Readable limit (.binary op left right) := by
        intro room p tokens rest binds spelled fitting stops
        apply level_of_level binds stops
        have here : Stops op.precedence rest := stops.looser binds
        change (level limit room op.precedence tokens).outcome = _
        rw [chain_binary folding operands.1 operands.2 leftChained rightReadable spelled fitting
          (here.looser (by omega)), folds_stops]
        · rfl
        · intro other sign same
          exact absurd (here other sign) (by rw [same]; exact Nat.lt_irrefl _)
      refine ⟨readable, ?_⟩
      intro room p tokens rest operators _ binds spelled fitting stops
      by_cases same : op.precedence = p
      · subst same
        rw [Phrase.chain, if_pos rfl]
        exact chain_binary folding operands.1 operands.2 leftChained rightReadable spelled fitting
          stops
      · have apart : p.level ≠ op.precedence.level := fun level =>
          same (Precedence.level_injective level.symm)
        exact level_operand operators ‹_› readable (Nat.lt_of_le_of_ne binds apart) spelled fitting
          stops

theorem expression_complete {phrase : Phrase} (fits : phrase.Fits)
    (spelled : Spelled phrase.kinds tokens rest) (fitting : phrase.levels ≤ room)
    (stops : Stops .assignment rest) :
    (expression limit room tokens).outcome = .ok (phrase.tree, rest) :=
  expression_of_readable (readable_complete phrase fits).1 spelled fitting stops

end Expression

section Statement

/-- A sentence is read in whole where no `else` follows that would belong to it. -/
def Stated (limit : Nat) (s : Sentence) : Prop :=
  ∀ room tokens rest, Spelled s.kinds tokens rest → s.levels ≤ room →
    (s.tree.endsOpen = true → ahead rest ≠ some .elseKeyword) →
    (statement limit room tokens).outcome = .ok (s.tree, rest)

theorem ahead_spelled {tokens : List Token} (spelled : Spelled (kind :: kinds) tokens rest) :
    ahead tokens = some kind := by
  obtain ⟨token, after, rfl, rfl, _⟩ := Spelled.cons_iff.mp spelled
  rfl

/-- Statements that begin like an expression are expression statements. -/
theorem statement_phrase {value : Phrase} (spelled : Spelled value.kinds tokens rest) :
    (statement limit (room + 1) tokens).outcome =
      Rule.statement.during (expressionStatement limit room tokens).outcome := by
  obtain ⟨kind, more, same, begins⟩ := value.kinds_begin
  have sign := ahead_spelled (same ▸ spelled)
  apply statement_other
  · rw [sign]
    rintro ⟨⟩
    contradiction
  · rw [sign]
    rintro ⟨⟩
    contradiction

theorem stated_expression {value : Phrase} (fits : value.Fits) :
    Stated limit (.expression value) := by
  intro room tokens rest spelled fitting _
  obtain ⟨between, content, closing⟩ := Spelled.append_iff.mp spelled
  cases room with
  | zero => exact absurd fitting (Nat.not_succ_le_zero _)
  | succ room =>
    have read : (expression limit room tokens).outcome = .ok (value.tree, between) :=
      expression_complete fits content (Nat.le_of_succ_le_succ fitting)
        (stops_of_ahead fun op other => by rw [ahead_spelled closing] at other; cases other)
    rw [statement_phrase content, expressionStatement_eq, read, bind_ok, expect_spelled closing]
    rfl

/-- A condition in parentheses, as it stands before a branch. -/
theorem condition_complete (limit room : Nat) {condition : Phrase} (fits : condition.Fits)
    (spelled : Spelled (.leftParen :: (condition.kinds ++ .rightParen :: kinds)) tokens rest)
    (fitting : condition.levels ≤ room) :
    ∃ first second third, (expect .leftParen tokens).outcome = .ok ((), first) ∧
      (expression limit room first).outcome = .ok (condition.tree, second) ∧
      (expect .rightParen second).outcome = .ok ((), third) ∧ Spelled kinds third rest := by
  obtain ⟨opening, first, rfl, sign, spelled⟩ := Spelled.cons_iff.mp spelled
  obtain ⟨second, content, spelled⟩ := Spelled.append_iff.mp spelled
  obtain ⟨closing, third, rfl, close, spelled⟩ := Spelled.cons_iff.mp spelled
  refine ⟨first, closing :: third, third, ?_, ?_, ?_, spelled⟩
  · exact expect_spelled (sign ▸ .token opening first)
  · exact expression_complete fits content fitting
      (stops_of_kind fun op other => by rw [close] at other; contradiction)
  · exact expect_spelled (close ▸ .token closing third)

theorem stated_ifThen {condition : Phrase} {branch : Sentence} (fits : condition.Fits)
    (stated : Stated limit branch) : Stated limit (.ifThen condition branch) := by
  intro room tokens rest spelled fitting closed
  cases room with
  | zero => exact absurd fitting (Nat.not_succ_le_zero _)
  | succ room =>
    simp only [Sentence.levels] at fitting
    obtain ⟨keyword, after, rfl, sign, spelled⟩ := Spelled.cons_iff.mp spelled
    obtain ⟨first, second, third, opening, test, closing, content⟩ :=
      condition_complete limit room fits spelled (by omega)
    have taken := stated room third rest content (by omega) fun _ => closed rfl
    simp only [statement_if sign, ifStatement_eq, opening, test, closing, taken, bind_ok,
      closed rfl, if_false, Rule.during_ok, Sentence.tree]

theorem stated_ifThenElse {condition : Phrase} {branch otherwise : Sentence}
    (fits : condition.Fits) (shut : branch.tree.endsOpen = false) (stated : Stated limit branch)
    (other : Stated limit otherwise) :
    Stated limit (.ifThenElse condition branch otherwise) := by
  intro room tokens rest spelled fitting closed
  cases room with
  | zero => exact absurd fitting (Nat.not_succ_le_zero _)
  | succ room =>
    simp only [Sentence.levels] at fitting
    obtain ⟨keyword, after, rfl, sign, spelled⟩ := Spelled.cons_iff.mp spelled
    obtain ⟨first, second, third, opening, test, closing, content⟩ :=
      condition_complete limit room fits spelled (by omega)
    obtain ⟨fourth, first, second⟩ := Spelled.append_iff.mp content
    have follows := ahead_spelled second
    obtain ⟨_, last, rfl, _, second⟩ := Spelled.cons_iff.mp second
    have taken := stated room third _ first (by omega) fun ends => by
      rw [shut] at ends
      contradiction
    have refused := other room last rest second (by omega) closed
    simp only [statement_if sign, ifStatement_eq, opening, test, closing, taken, bind_ok, follows,
      if_true, List.tail_cons, refused, Rule.during_ok, Sentence.tree]

/-- Sentences are read one after the other up to where they close. -/
def AllStated (limit : Nat) (body : List Sentence) : Prop :=
  ∀ room closing found tokens bound rest (within : tokens.length < bound),
    closing.beginsSentence = false → Spelled (Sentence.allKinds body) tokens rest →
    Sentence.mostLevels body ≤ room → atClose closing rest → ahead rest ≠ some .elseKeyword →
    (statements limit room closing found tokens within).outcome =
      .ok (found.reverse ++ Sentence.trees body, rest)

/-- No list of statements closes where a sentence begins. -/
theorem not_atClose {s : Sentence} (spelled : Spelled s.kinds tokens rest)
    (ends : closing.beginsSentence = false) : ¬ atClose closing tokens := by
  obtain ⟨kind, more, same, begins⟩ := s.kinds_begin
  intro close
  rcases close kind (ahead_spelled (same ▸ spelled)) with rfl | rfl
  · rw [ends] at begins
    contradiction
  · contradiction

/-- No sentence begins with `else`. -/
theorem not_else {s : Sentence} (spelled : Spelled s.kinds tokens rest) :
    ahead tokens ≠ some .elseKeyword := by
  obtain ⟨kind, more, same, begins⟩ := s.kinds_begin
  rw [ahead_spelled (same ▸ spelled)]
  rintro ⟨⟩
  contradiction

theorem allStated_cons {s : Sentence} (stated : Stated limit s) (more : AllStated limit body) :
    AllStated limit (s :: body) := by
  intro room closing found tokens bound rest within ends spelled fitting close free
  simp only [Sentence.mostLevels] at fitting
  obtain ⟨between, first, second⟩ := Spelled.append_iff.mp spelled
  have apart : ahead between ≠ some .elseKeyword := by
    cases body with
    | nil => exact Spelled.nil_iff.mp second ▸ free
    | cons next _ =>
      obtain ⟨_, nextFirst, _⟩ := Spelled.append_iff.mp second
      exact not_else nextFirst
  rw [statements_eq _ _ _ (not_atClose first ends),
    stated room tokens between first (by omega) fun _ => apart, bind_ok,
    more _ _ _ _ _ _ _ ends second (by omega) close free, List.reverse_cons, List.append_assoc]
  rfl

theorem stated_block {body : List Sentence} (stated : AllStated limit body) :
    Stated limit (.block body) := by
  intro room tokens rest spelled fitting _
  obtain ⟨opening, after, rfl, sign, spelled⟩ := Spelled.cons_iff.mp spelled
  obtain ⟨between, content, closing⟩ := Spelled.append_iff.mp spelled
  have close := ahead_spelled closing
  cases room with
  | zero => exact absurd fitting (Nat.not_succ_le_zero _)
  | succ room =>
    have read := stated room .rightBrace [] after _ between (Nat.lt_succ_self _) rfl content
      (Nat.le_of_succ_le_succ fitting)
      (fun kind same => .inl (Option.some.inj (close.symm.trans same)).symm)
      (by rw [close]; simp)
    rw [statement_block sign, block_eq, read, bind_ok, expect_spelled closing]
    rfl

mutual

theorem statement_complete (s : Sentence) (fits : s.Fits) : Stated limit s :=
  match s with
  | .ifThen _ branch => stated_ifThen fits.1 (statement_complete branch fits.2)
  | .ifThenElse _ branch otherwise =>
    stated_ifThenElse fits.1 fits.2.2.2 (statement_complete branch fits.2.1)
      (statement_complete otherwise fits.2.2.1)
  | .expression _ => stated_expression fits
  | .block body => stated_block (statements_complete body fits)

theorem statements_complete (body : List Sentence) (fits : Sentence.AllFit body) :
    AllStated limit body :=
  match body with
  | [] => by
    intro room closing found tokens bound rest within _ spelled _ close _
    obtain rfl := Spelled.nil_iff.mp spelled
    rw [statements_close _ _ _ close, Sentence.trees, List.append_nil]
  | s :: more =>
    allStated_cons (statement_complete s fits.1) (statements_complete more fits.2)

end

end Statement

theorem program_complete {body : List Sentence} (fits : Sentence.AllFit body)
    (spelled : Spelled (Sentence.allKinds body) tokens (ending :: after))
    (sign : ending.kind = .endOfInput) (fitting : Sentence.mostLevels body ≤ limit) :
    program limit tokens = .ok (.block (Sentence.trees body)) := by
  have stated : AllStated limit body := statements_complete body fits
  have read := stated limit .endOfInput [] tokens _ _ (Nat.lt_succ_self _) rfl spelled fitting
    (fun kind same => .inr (Option.some.inj (same.symm.trans (congrArg some sign))))
    (by rw [ahead_cons, sign]; simp)
  have closing : Spelled [.endOfInput] (ending :: after) after := sign ▸ .token ending after
  rw [program_eq, read, bind_ok, expect_spelled closing]
  rfl

theorem singleExpression_complete {phrase : Phrase} (fits : phrase.Fits)
    (spelled : Spelled phrase.kinds tokens (ending :: after)) (sign : ending.kind = .endOfInput)
    (fitting : phrase.levels ≤ limit) : singleExpression limit tokens = .ok phrase.tree := by
  have read : (expression limit limit tokens).outcome = .ok (phrase.tree, ending :: after) := by
    refine expression_complete fits spelled fitting (stops_of_kind fun op other => ?_)
    rw [sign] at other
    contradiction
  have closing : Spelled [.endOfInput] (ending :: after) after := sign ▸ .token ending after
  rw [singleExpression_eq, read, bind_ok, expect_spelled closing]
  rfl

end Grammar
end Scriptlet
