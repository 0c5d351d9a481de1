import Scriptlet.Proofs.Grammar.Outcome
import Scriptlet.Proofs.Grammar.Phrase

/-! Whatever a rule reads is a parse tree that fits the grammar and the room there is. The induction
is on the room: every rule that calls a looser one spends a level on it, and between two such calls
the binding strengths only get tighter. -/
namespace Scriptlet

/-- From the tightest binding strength to the loosest. -/
theorem Precedence.tightest_first {motive : Precedence → Prop} (primary : motive .primary)
    (looser : ∀ p, p ≠ .primary → motive p.tighter → motive p) (p : Precedence) : motive p := by
  have multiplicative := looser .multiplicative (by decide) primary
  have additive := looser .additive (by decide) multiplicative
  have relational := looser .relational (by decide) additive
  have equality := looser .equality (by decide) relational
  have logicalAnd := looser .logicalAnd (by decide) equality
  have logicalOr := looser .logicalOr (by decide) logicalAnd
  have assignment := looser .assignment (by decide) logicalOr
  cases p <;> assumption

theorem Precedence.level_injective {p q : Precedence} (same : p.level = q.level) : p = q := by
  cases p <;> cases q <;> first | rfl | contradiction

theorem Precedence.level_le_primary (p : Precedence) : p.level ≤ primary.level := by
  cases p <;> decide

theorem Operator.precedence_eq_assignment {op : Operator} :
    op.precedence = .assignment ↔ op = .assign := by
  cases op <;> decide

theorem Operator.precedence_ne_primary (op : Operator) : op.precedence ≠ .primary := by
  cases op <;> decide

namespace Grammar

/-- No operator follows that would go on with an expression of strength `p`. -/
def Stops (p : Precedence) (tokens : List Token) : Prop :=
  ∀ op, ahead tokens = some (.operator op) → op.precedence.level < p.level

theorem Stops.looser (stops : Stops p tokens) (looser : p.level ≤ q.level) : Stops q tokens :=
  fun op sign => Nat.lt_of_lt_of_le (stops op sign) looser

/-- Where an operator other than those of the next looser strength follows, that one stops too. -/
theorem Stops.of_tighter {p : Precedence} (operators : p ≠ .primary)
    (stops : Stops p.tighter tokens)
    (other : ∀ op, ahead tokens = some (.operator op) → op.precedence ≠ p) : Stops p tokens := by
  intro op sign
  have below := stops op sign
  rw [Precedence.level_tighter operators] at below
  have differs : op.precedence.level ≠ p.level := fun same =>
    other op sign (Precedence.level_injective same)
  omega

theorem stops_of_ahead (other : ∀ op, ahead tokens ≠ some (.operator op)) : Stops p tokens :=
  fun op sign => absurd sign (other op)

/-- A phrase that a level of the expression grammar reads off `tokens`, leaving `rest`. -/
structure ReadAs (room : Nat) (p : Precedence) (tokens : List Token) (e : Expr) (rest : List Token)
    (phrase : Phrase) : Prop where
  fits : phrase.Fits
  tree : phrase.tree = e
  spelled : Spelled phrase.kinds tokens rest
  binds : p.level ≤ phrase.precedence.level
  room : phrase.levels ≤ room
  stops : Stops p rest

/-- A sentence that the statement rule reads off `tokens`, leaving `rest`. -/
structure StatedAs (room : Nat) (tokens : List Token) (s : Stmt) (rest : List Token)
    (sentence : Sentence) : Prop where
  fits : sentence.Fits
  tree : sentence.tree = s
  spelled : Spelled sentence.kinds tokens rest
  room : sentence.levels ≤ room
  closed : s.endsOpen = true → ahead rest ≠ some .elseKeyword

variable {limit room : Nat}

theorem expect_ok {kind : Token.Kind} {tokens rest : List Token}
    (read : (expect kind tokens).outcome = .ok ((), rest)) : Spelled [kind] tokens rest := by
  rw [expect_eq] at read
  split at read
  · rename_i sign
    obtain ⟨token, after, rfl, rfl⟩ := ahead_eq_some_iff.mp sign
    cases read
    exact .token token _
  · contradiction

section Expression

/-- What the levels of the expression grammar read within some room. -/
def LevelsSound (limit room : Nat) : Prop :=
  ∀ p tokens e rest, (level limit room p tokens).outcome = .ok (e, rest) →
    ∃ phrase, ReadAs room p tokens e rest phrase

theorem atom_sound {token : Token} (single : atom? token.kind = some e) :
    ∃ phrase : Phrase, phrase.Fits ∧ phrase.tree = e ∧ phrase.kinds = [token.kind] ∧
      phrase.precedence = .primary ∧ phrase.levels = 0 := by
  cases kind : token.kind with
  | number value =>
    rw [kind] at single
    cases single
    exact ⟨.number value, trivial, rfl, rfl, rfl, rfl⟩
  | string value =>
    rw [kind] at single
    cases single
    exact ⟨.string value, trivial, rfl, rfl, rfl, rfl⟩
  | boolean value =>
    rw [kind] at single
    cases single
    exact ⟨.boolean value, trivial, rfl, rfl, rfl, rfl⟩
  | identifier name =>
    rw [kind] at single; cases single; exact ⟨.identifier name, trivial, rfl, rfl, rfl, rfl⟩
  | _ => rw [kind] at single; contradiction

theorem primary_sound (smaller : ∀ less < room, LevelsSound limit less)
    (read : (primary limit room tokens).outcome = .ok (e, rest)) :
    ∃ phrase : Phrase, phrase.Fits ∧ phrase.tree = e ∧ Spelled phrase.kinds tokens rest ∧
      phrase.precedence = .primary ∧ phrase.levels ≤ room := by
  cases tokens with
  | nil => rw [primary_nil] at read; contradiction
  | cons token after =>
    cases single : atom? token.kind with
    | some atom =>
      rw [primary_atom single] at read
      cases read
      obtain ⟨phrase, fits, tree, kinds, atomic, free⟩ := atom_sound single
      exact ⟨phrase, fits, tree, kinds ▸ .token token _, atomic, free ▸ Nat.zero_le _⟩
    | none =>
      by_cases opening : token.kind = .leftParen
      · rw [primary_group opening] at read
        cases room with
        | zero => contradiction
        | succ room =>
          obtain ⟨⟨inner, between⟩, whole, read⟩ := bind_eq_ok_iff.mp read
          obtain ⟨⟨⟨⟩, last⟩, closing, read⟩ := bind_eq_ok_iff.mp read
          cases read
          rw [expression_eq, during_eq_ok_iff] at whole
          obtain ⟨phrase, content⟩ := smaller room (Nat.lt_succ_self _) _ _ _ _ whole
          refine ⟨.group phrase, content.fits, content.tree, ?_, rfl,
            Nat.succ_le_succ content.room⟩
          rw [Phrase.kinds, ← opening]
          exact .cons token (content.spelled.append (expect_ok closing))
      · rw [primary_other single opening] at read
        contradiction

/-- A phrase that has grown out of `left` by reading on from `tokens`. The operators of the chain
so far hold one level each, which is why their number counts with the room. -/
structure JoinedAs (room : Nat) (p : Precedence) (left : Phrase) (tokens : List Token) (e : Expr)
    (rest : List Token) (phrase : Phrase) : Prop where
  fits : phrase.Fits
  tree : phrase.tree = e
  spelled : ∃ more, phrase.kinds = left.kinds ++ more ∧ Spelled more tokens rest
  binds : p.level ≤ phrase.precedence.level
  room : phrase.levels ≤ max left.levels (left.chain p + room)
  stops : Stops p rest

theorem folds_sound {room : Nat} {p : Precedence} (operators : p ≠ .primary)
    (folding : p ≠ .assignment) (smaller : ∀ less < room, LevelsSound limit less) (left : Phrase)
    (fits : left.Fits) (binds : p.level ≤ left.precedence.level) (stops : Stops p.tighter tokens)
    (read : (folds limit room p left.tree tokens).outcome = .ok (e, rest)) :
    ∃ phrase, JoinedAs room p left tokens e rest phrase := by
  by_cases more : ∃ op, ahead tokens = some (.operator op) ∧ op.precedence = p
  · obtain ⟨op, sign, same⟩ := more
    obtain ⟨token, after, rfl, kind⟩ := ahead_eq_some_iff.mp sign
    rw [folds_eq _ _ _ kind same] at read
    cases room with
    | zero => contradiction
    | succ room =>
      obtain ⟨⟨operand, between⟩, first, read⟩ := bind_eq_ok_iff.mp read
      obtain ⟨right, content⟩ := smaller room (Nat.lt_succ_self _) _ _ _ _ first
      have tighter := content.binds
      rw [Precedence.level_tighter operators] at tighter
      have joinedFits : (Phrase.binary op left right).Fits := by
        refine ⟨fits, content.fits, ?_⟩
        have assigns : op ≠ .assign := fun assign =>
          folding (same ▸ Operator.precedence_eq_assignment.mpr assign)
        rw [if_neg assigns, same]
        exact ⟨binds, tighter⟩
      rw [← content.tree] at read
      obtain ⟨phrase, grown⟩ := folds_sound operators folding
        (fun less h => smaller less (Nat.lt_succ_of_lt h)) (.binary op left right) joinedFits
        (Nat.le_of_eq (congrArg _ same.symm)) content.stops read
      obtain ⟨added, kinds, spelled⟩ := grown.spelled
      refine ⟨phrase, grown.fits, grown.tree,
        ⟨.operator op :: (right.kinds ++ added), ?_, ?_⟩, grown.binds, ?_, grown.stops⟩
      · rw [kinds, Phrase.kinds, List.append_assoc, List.cons_append]
      · exact kind ▸ .cons token (content.spelled.append spelled)
      · have grownRoom := grown.room
        have operandRoom := content.room
        simp only [Phrase.levels, Phrase.chain, same, if_true] at grownRoom
        omega
  · have other : ∀ op, ahead tokens = some (.operator op) → op.precedence ≠ p :=
      fun op sign same => more ⟨op, sign, same⟩
    rw [folds_stops _ other] at read
    cases read
    exact ⟨left, fits, rfl, ⟨[], (List.append_nil _).symm, Spelled.nil_iff.mpr rfl⟩, binds,
      Nat.le_max_left .., stops.of_tighter operators other⟩

theorem assigned_sound (smaller : ∀ less < room, LevelsSound limit less) (target : Phrase)
    (first : ReadAs room .logicalOr tokens target.tree between target)
    (read : (assigned limit room target.tree between).outcome = .ok (e, rest)) :
    ∃ phrase, ReadAs room .assignment tokens e rest phrase := by
  by_cases sign : ahead between = some (.operator .assign)
  · obtain ⟨token, after, rfl, kind⟩ := ahead_eq_some_iff.mp sign
    rw [assigned_eq _ _ _ kind] at read
    split at read
    · contradiction
    · rename_i name room named
      obtain ⟨⟨value, last⟩, whole, read⟩ := bind_eq_ok_iff.mp read
      cases read
      obtain ⟨phrase, content⟩ := smaller room (Nat.lt_succ_self _) _ _ _ _ whole
      have free : target.chain Operator.assign.precedence = 0 := target.chain_eq_zero (by
        rw [target.precedence_of_tree_identifier named]; decide)
      refine ⟨.binary .assign target phrase,
        ⟨first.fits, content.fits, by rw [if_pos rfl]; exact ⟨name, named⟩⟩,
        by rw [Phrase.tree, named, content.tree], ?_, Nat.zero_le _, ?_, content.stops⟩
      · exact first.spelled.append (kind ▸ .cons token content.spelled)
      · have targetRoom := first.room
        have valueRoom := content.room
        rw [Phrase.levels, free]
        omega
    · contradiction
  · rw [assigned_stops _ sign] at read
    cases read
    refine ⟨target, first.fits, rfl, first.spelled, Nat.zero_le _, first.room, ?_⟩
    refine Stops.of_tighter (by decide) first.stops ?_
    intro op other same
    rw [Operator.precedence_eq_assignment.mp same] at other
    exact sign other

theorem level_sound (smaller : ∀ less < room, LevelsSound limit less) : LevelsSound limit room := by
  intro p
  induction p using Precedence.tightest_first with
  | primary =>
    intro tokens e rest read
    rw [level_primary_eq, during_eq_ok_iff] at read
    obtain ⟨phrase, fits, tree, spelled, binds, free⟩ := primary_sound smaller read
    refine ⟨phrase, fits, tree, spelled, Nat.le_of_eq (congrArg _ binds.symm), free, ?_⟩
    intro op sign
    cases op <;> decide
  | looser p operators ih =>
    intro tokens e rest read
    rw [level_eq operators, during_eq_ok_iff] at read
    obtain ⟨⟨first, between⟩, operand, onward⟩ := bind_eq_ok_iff.mp read
    obtain ⟨phrase, content⟩ := ih _ _ _ operand
    obtain rfl := content.tree
    simp only [joined] at onward
    split at onward
    · rename_i assignment
      subst assignment
      exact assigned_sound smaller phrase content onward
    · rename_i folding
      have tighter := content.binds
      rw [Precedence.level_tighter operators] at tighter
      obtain ⟨whole, grown⟩ := folds_sound operators folding smaller phrase content.fits
        (by omega) content.stops onward
      obtain ⟨added, kinds, spelled⟩ := grown.spelled
      have apart : phrase.precedence ≠ p := fun same => by rw [same] at tighter; omega
      have free := phrase.chain_eq_zero apart
      refine ⟨whole, grown.fits, grown.tree, kinds ▸ content.spelled.append spelled, grown.binds,
        ?_, grown.stops⟩
      have operandRoom := content.room
      have grownRoom := grown.room
      omega

theorem levels_sound (limit room : Nat) : LevelsSound limit room := by
  induction room using Nat.strongRecOn with
  | ind room ih => exact level_sound ih

theorem expression_sound (read : (expression limit room tokens).outcome = .ok (e, rest)) :
    ∃ phrase, ReadAs room .assignment tokens e rest phrase := by
  rw [expression_eq, during_eq_ok_iff] at read
  exact levels_sound limit room _ _ _ _ read

end Expression

section Statement

/-- What the statement rule reads within some room. -/
def StatementsSound (limit room : Nat) : Prop :=
  ∀ tokens s rest, (statement limit room tokens).outcome = .ok (s, rest) →
    ∃ sentence, StatedAs room tokens s rest sentence

theorem expressionStatement_sound
    (read : (expressionStatement limit room tokens).outcome = .ok (s, rest)) :
    ∃ sentence, StatedAs (room + 1) tokens s rest sentence := by
  rw [expressionStatement_eq, during_eq_ok_iff] at read
  obtain ⟨⟨value, between⟩, whole, read⟩ := bind_eq_ok_iff.mp read
  obtain ⟨⟨⟨⟩, last⟩, semicolon, read⟩ := bind_eq_ok_iff.mp read
  cases read
  obtain ⟨phrase, content⟩ := expression_sound whole
  exact ⟨.expression phrase, content.fits, congrArg _ content.tree,
    content.spelled.append (expect_ok semicolon), Nat.succ_le_succ content.room,
    fun impossible => by contradiction⟩

theorem ifStatement_sound (inner : StatementsSound limit room) (keyword : Token)
    (sign : keyword.kind = .ifKeyword)
    (read : (ifStatement limit room tokens).outcome = .ok (s, rest)) :
    ∃ sentence, StatedAs (room + 1) (keyword :: tokens) s rest sentence := by
  rw [ifStatement_eq, during_eq_ok_iff] at read
  obtain ⟨⟨⟨⟩, first⟩, opening, read⟩ := bind_eq_ok_iff.mp read
  obtain ⟨⟨condition, second⟩, whole, read⟩ := bind_eq_ok_iff.mp read
  obtain ⟨⟨⟨⟩, third⟩, closing, read⟩ := bind_eq_ok_iff.mp read
  obtain ⟨⟨branch, fourth⟩, taken, read⟩ := bind_eq_ok_iff.mp read
  obtain ⟨phrase, test⟩ := expression_sound whole
  obtain ⟨sentence, content⟩ := inner _ _ _ taken
  have head : Spelled (.ifKeyword :: .leftParen :: (phrase.kinds ++ .rightParen :: sentence.kinds))
      (keyword :: tokens) fourth :=
    sign ▸ .cons keyword ((expect_ok opening).append (test.spelled.append
      ((expect_ok closing).append content.spelled)))
  have testRoom := test.room
  have branchRoom := content.room
  split at read
  · rename_i follows
    obtain ⟨⟨otherwise, last⟩, refused, read⟩ := bind_eq_ok_iff.mp read
    cases read
    obtain ⟨other, remainder⟩ := inner _ _ _ refused
    obtain ⟨token, after, rfl, kind⟩ := ahead_eq_some_iff.mp follows
    have shut : sentence.tree.endsOpen = false := by
      rw [content.tree]
      exact Bool.eq_false_iff.mpr fun ends => content.closed ends follows
    refine ⟨.ifThenElse phrase sentence other, ⟨test.fits, content.fits, remainder.fits, shut⟩,
      ?_, ?_, ?_, remainder.closed⟩
    · rw [Sentence.tree, test.tree, content.tree, remainder.tree]
    · have tail : Spelled (.elseKeyword :: other.kinds) (token :: after) last :=
        kind ▸ .cons token remainder.spelled
      simpa only [Sentence.kinds, List.cons_append, List.append_assoc] using head.append tail
    · have otherRoom := remainder.room
      simp only [Sentence.levels]
      omega
  · rename_i follows
    cases read
    refine ⟨.ifThen phrase sentence, ⟨test.fits, content.fits⟩, ?_, head, ?_, fun _ => follows⟩
    · rw [Sentence.tree, test.tree, content.tree]
    · simp only [Sentence.levels]
      omega

/-- A list of statements is read one after the other up to where it closes. -/
theorem statements_sound (inner : StatementsSound limit room) (closing : Token.Kind)
    (found : List Stmt) (tokens : List Token) (within : tokens.length < bound)
    (read : (statements limit room closing found tokens within).outcome = .ok (body, rest)) :
    ∃ sentences, Sentence.AllFit sentences ∧ body = found.reverse ++ Sentence.trees sentences ∧
      Spelled (Sentence.allKinds sentences) tokens rest ∧
      Sentence.mostLevels sentences ≤ room ∧ atClose closing rest := by
  induction h : tokens.length using Nat.strongRecOn generalizing tokens found bound with
  | ind n ih =>
    subst h
    by_cases close : atClose closing tokens
    · rw [statements_close _ _ _ close] at read
      cases read
      exact ⟨[], trivial, (List.append_nil _).symm, Spelled.nil_iff.mpr rfl, Nat.zero_le _, close⟩
    · rw [statements_eq _ _ _ close] at read
      obtain ⟨⟨s, between⟩, first, read⟩ := bind_eq_ok_iff.mp read
      obtain ⟨sentence, content⟩ := inner _ _ _ first
      obtain ⟨more, fits, trees, spelled, room, closed⟩ :=
        ih _ (outcome_within first) _ _ _ read rfl
      refine ⟨sentence :: more, ⟨content.fits, fits⟩, ?_, content.spelled.append spelled,
        Nat.max_le.mpr ⟨content.room, room⟩, closed⟩
      rw [trees, List.reverse_cons, List.append_assoc, Sentence.trees, content.tree]
      rfl

theorem block_sound (inner : StatementsSound limit room) (brace : Token)
    (sign : brace.kind = .leftBrace) (read : (block limit room tokens).outcome = .ok (s, rest)) :
    ∃ sentence, StatedAs (room + 1) (brace :: tokens) s rest sentence := by
  rw [block_eq, during_eq_ok_iff] at read
  obtain ⟨⟨body, between⟩, whole, read⟩ := bind_eq_ok_iff.mp read
  obtain ⟨⟨⟨⟩, last⟩, closing, read⟩ := bind_eq_ok_iff.mp read
  cases read
  obtain ⟨sentences, fits, trees, spelled, most, _⟩ := statements_sound inner _ _ _ _ whole
  refine ⟨.block sentences, fits, ?_, ?_, Nat.succ_le_succ most, fun impossible => by contradiction⟩
  · rw [Sentence.tree, trees]
    rfl
  · rw [Sentence.kinds, ← sign]
    exact .cons brace (spelled.append (expect_ok closing))

theorem statement_sound (limit room : Nat) : StatementsSound limit room := by
  induction room with
  | zero =>
    intro tokens s rest read
    rw [statement_zero, during_eq_ok_iff] at read
    contradiction
  | succ room ih =>
    intro tokens s rest read
    rw [statement_succ, during_eq_ok_iff] at read
    split at read
    · rename_i sign
      obtain ⟨token, after, rfl, kind⟩ := ahead_eq_some_iff.mp sign
      exact block_sound ih token kind read
    · split at read
      · rename_i sign
        obtain ⟨token, after, rfl, kind⟩ := ahead_eq_some_iff.mp sign
        exact ifStatement_sound ih token kind read
      · exact expressionStatement_sound read

end Statement

/-- An accepted program is a list of sentences up to the end mark. -/
theorem program_sound (read : program limit tokens = .ok root) :
    ∃ sentences ending after, Sentence.AllFit sentences ∧ root = .block (Sentence.trees sentences) ∧
      Spelled (Sentence.allKinds sentences) tokens (ending :: after) ∧
      ending.kind = .endOfInput ∧ Sentence.mostLevels sentences ≤ limit := by
  rw [program_eq, during_eq_ok_iff] at read
  obtain ⟨⟨body, between⟩, whole, read⟩ := bind_eq_ok_iff.mp read
  obtain ⟨⟨⟨⟩, last⟩, closing, read⟩ := bind_eq_ok_iff.mp read
  cases read
  obtain ⟨sentences, fits, trees, spelled, most, _⟩ :=
    statements_sound (statement_sound limit limit) _ _ _ _ whole
  obtain ⟨ending, after, rfl, sign, _⟩ := Spelled.cons_iff.mp (expect_ok closing)
  exact ⟨sentences, ending, after, fits, congrArg _ trees, spelled, sign, most⟩

/-- An accepted single expression is a phrase up to the end mark. -/
theorem singleExpression_sound (read : singleExpression limit tokens = .ok e) :
    ∃ (phrase : Phrase) (ending : Token) (after : List Token), phrase.Fits ∧ phrase.tree = e ∧
      Spelled phrase.kinds tokens (ending :: after) ∧ ending.kind = .endOfInput ∧
      phrase.levels ≤ limit := by
  rw [singleExpression_eq, during_eq_ok_iff] at read
  obtain ⟨⟨value, between⟩, whole, read⟩ := bind_eq_ok_iff.mp read
  obtain ⟨⟨⟨⟩, last⟩, closing, read⟩ := bind_eq_ok_iff.mp read
  cases read
  obtain ⟨phrase, content⟩ := expression_sound whole
  obtain ⟨ending, after, rfl, sign, _⟩ := Spelled.cons_iff.mp (expect_ok closing)
  exact ⟨phrase, ending, after, content.fits, content.tree, content.spelled, sign, content.room⟩

end Grammar
end Scriptlet
