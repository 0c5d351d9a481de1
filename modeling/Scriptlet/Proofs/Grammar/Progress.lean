import Scriptlet.Proofs.Grammar.Completeness
import Scriptlet.Proofs.Grammar.Lookahead

/-! Progress. A rule that succeeds has taken a token, and of what follows it has seen no more than
the type of the next token. What it has read is a parse tree that would be read again before all
tokens that do not go on with it, and the next token decides whether they do. So the two loops of
the parser, over statements and over operators, end on every list of tokens. -/
namespace Scriptlet

/-- The type of a token: its kind, whatever name or value it carries. -/
def Token.Kind.type : Token.Kind → Token.Kind
  | identifier _ => identifier ""
  | string _ => string ""
  | number _ => number 0
  | boolean _ => boolean false
  | kind => kind

/-- Types are coarser than kinds only where an operand begins. -/
theorem Token.Kind.type_eq_iff {kind mark : Token.Kind} (other : mark.beginsPhrase = false) :
    kind.type = mark ↔ kind = mark := by
  cases kind with
  | identifier | string | number | boolean => constructor <;> (rintro rfl; contradiction)
  | _ => exact Iff.rfl

namespace Grammar

variable {limit room : Nat}

section Lookahead

/-- The type of the next token. -/
def nextType (tokens : List Token) : Option Token.Kind := (ahead tokens).map Token.Kind.type

theorem ahead_of_nextType {mark : Token.Kind} (other : mark.beginsPhrase = false)
    (same : nextType tokens = nextType rest) (next : ahead tokens = some mark) :
    ahead rest = some mark := by
  have type : nextType rest = some mark := by
    rw [← same, nextType, next]
    exact congrArg some ((Token.Kind.type_eq_iff other).mpr rfl)
  obtain ⟨kind, sign, typed⟩ := Option.map_eq_some_iff.mp type
  rw [sign, (Token.Kind.type_eq_iff other).mp typed]

/-- A rule that has taken a token where it succeeds, and has seen only the type of the next one: it
reads the same before all tokens that go on with that type, or that end there as these do. -/
def Advances (read : Reader α) : Prop :=
  ∀ tokens a rest, read tokens = .ok (a, rest) → ∃ used, used ≠ [] ∧ tokens = used ++ rest ∧
    ∀ other, nextType other = nextType rest → read (used ++ other) = .ok (a, other)

/-- What spells something has tokens. -/
theorem used_ne_nil {used : List Token} (kinds : used.map Token.kind = kind :: more) :
    used ≠ [] := by
  rintro rfl
  contradiction

theorem Advances.shrinks {read : Reader α} (advances : Advances read)
    (success : read tokens = .ok (a, rest)) : rest.length < tokens.length := by
  obtain ⟨used, taken, rfl, _⟩ := advances _ _ _ success
  rw [List.length_append]
  exact Nat.lt_add_of_pos_left (List.length_pos_iff.mpr taken)

theorem level_advances (limit room : Nat) (p : Precedence) :
    Advances fun tokens => (level limit room p tokens).outcome := by
  intro tokens e rest read
  obtain ⟨phrase, content⟩ := levels_sound _ _ _ _ _ _ read
  obtain ⟨used, rfl, kinds⟩ := content.spelled
  obtain ⟨kind, more, begins, _⟩ := phrase.kinds_begin
  refine ⟨used, used_ne_nil (kinds.trans begins), rfl, fun other same => ?_⟩
  have stops : Stops p other := fun op sign => content.stops op (ahead_of_nextType rfl same sign)
  rw [← content.tree]
  exact (readable_complete phrase content.fits).1 room p _ _ content.binds ⟨used, rfl, kinds⟩
    content.room stops

theorem expression_advances (limit room : Nat) :
    Advances fun tokens => (expression limit room tokens).outcome := by
  simp only [Advances, expression_eq, during_eq_ok_iff]
  exact level_advances limit room .assignment

theorem statement_advances (limit room : Nat) :
    Advances fun tokens => (statement limit room tokens).outcome := by
  intro tokens s rest read
  obtain ⟨sentence, content⟩ := statement_sound _ _ _ _ _ read
  obtain ⟨used, rfl, kinds⟩ := content.spelled
  obtain ⟨kind, more, begins, _⟩ := sentence.kinds_begin
  refine ⟨used, used_ne_nil (kinds.trans begins), rfl, fun other same => ?_⟩
  obtain rfl := content.tree
  exact statement_complete sentence content.fits room _ _ ⟨used, rfl, kinds⟩ content.room
    fun ends follows => content.closed ends (ahead_of_nextType rfl same follows)

end Lookahead

section Loop

/-- A loop that ends after so many rounds: it is left, or a round fails. -/
inductive Loop (round : σ → Except ε (Option σ)) : Nat → σ → Except ε σ → Prop where
  | left : round state = .ok none → Loop round 0 state (.ok state)
  | failed : round state = .error e → Loop round 0 state (.error e)
  | again : round state = .ok (some next) → Loop round n next result →
      Loop round (n + 1) state result

/-- A loop ends if every round makes something smaller. -/
theorem loop_ends {round : σ → Except ε (Option σ)} (size : σ → Nat)
    (shrinks : ∀ state next, round state = .ok (some next) → size next < size state) (state : σ) :
    ∃ n result, n ≤ size state ∧ Loop round n state result := by
  induction h : size state using Nat.strongRecOn generalizing state with
  | ind m ih =>
    subst h
    cases outcome : round state with
    | error e => exact ⟨0, .error e, Nat.zero_le _, .failed outcome⟩
    | ok onward =>
      cases onward with
      | none => exact ⟨0, .ok state, Nat.zero_le _, .left outcome⟩
      | some next =>
        have smaller := shrinks state next outcome
        obtain ⟨n, result, bounded, ends⟩ := ih _ smaller next rfl
        exact ⟨n + 1, result, Nat.le_trans (Nat.succ_le_succ bounded) smaller, .again outcome ends⟩

/-- A reader that goes round by round: it is done where a round leaves, and else reads on. -/
def GoesBy (round : σ → Except ε (Option σ)) (done : σ → β) (read : σ → Except ε β) : Prop :=
  ∀ state, read state = round state >>= fun onward =>
    match onward with
    | none => .ok (done state)
    | some next => read next

theorem Loop.reads {round : σ → Except ε (Option σ)} {read : σ → Except ε β}
    (unfolds : GoesBy round done read) (loop : Loop round n state result) :
    read state = result.map done := by
  induction loop with
  | left ends => rw [unfolds, ends]; rfl
  | failed ends => rw [unfolds, ends]; rfl
  | again onward _ ih => rw [unfolds, onward]; exact ih

/-- One round over the statements of a list: it is closed here, or one more statement is read. The
statements found so far stand in reverse. -/
def statementRound (limit room : Nat) (closing : Token.Kind) :
    List Stmt × List Token → Except SyntaxError (Option (List Stmt × List Token))
  | (_, []) => .ok none
  | (found, token :: after) =>
    if token.kind = closing ∨ token.kind = .endOfInput then .ok none
    else (statement limit room (token :: after)).outcome >>= fun next =>
      .ok (some (next.1 :: found, next.2))

/-- One round over the operators of a chain: no operator of strength `p` follows, or one is read
with its right operand, for which it takes a level. -/
def operatorRound (limit : Nat) (p : Precedence) :
    Nat × Expr × List Token → Except SyntaxError (Option (Nat × Expr × List Token))
  | (room, left, tokens) =>
    match ahead tokens with
    | some (.operator op) =>
      if op.precedence = p then
        match room with
        | 0 => stop (.nestingLimit limit) tokens
        | room + 1 => (level limit room p.tighter tokens.tail).outcome >>= fun right =>
          .ok (some (room, .binary op left right.1, right.2))
      else .ok none
    | _ => .ok none

theorem statementRound_eq (limit room : Nat) (closing : Token.Kind) (found : List Stmt)
    (tokens : List Token) :
    (atClose closing tokens ∧ statementRound limit room closing (found, tokens) = .ok none) ∨
    (¬ atClose closing tokens ∧ statementRound limit room closing (found, tokens) =
      (statement limit room tokens).outcome >>= fun next =>
        .ok (some (next.1 :: found, next.2))) := by
  cases tokens with
  | nil => exact .inl ⟨nofun, rfl⟩
  | cons token after =>
    have close : atClose closing (token :: after) ↔
        token.kind = closing ∨ token.kind = .endOfInput := by
      simp [atClose]
    by_cases here : token.kind = closing ∨ token.kind = .endOfInput
    · exact .inl ⟨close.mpr here, if_pos here⟩
    · exact .inr ⟨mt close.mp here, if_neg here⟩

theorem operatorRound_eq (p : Precedence) (left : Expr) (tokens : List Token) :
    ((∀ op, ahead tokens = some (.operator op) → op.precedence ≠ p) ∧
      operatorRound limit p (room, left, tokens) = .ok none) ∨
    ∃ op token after, tokens = token :: after ∧ token.kind = .operator op ∧ op.precedence = p ∧
      operatorRound limit p (room, left, tokens) =
        match room with
        | 0 => stop (.nestingLimit limit) tokens
        | room + 1 => (level limit room p.tighter after).outcome >>= fun right =>
          .ok (some (room, .binary op left right.1, right.2)) := by
  by_cases joins : ∃ op, ahead tokens = some (.operator op) ∧ op.precedence = p
  · obtain ⟨op, sign, same⟩ := joins
    obtain ⟨token, after, rfl, kind⟩ := ahead_eq_some_iff.mp sign
    refine .inr ⟨op, token, after, rfl, kind, same, ?_⟩
    simp only [operatorRound, sign, if_pos same, List.tail_cons]
  · have other : ∀ op, ahead tokens = some (.operator op) → op.precedence ≠ p :=
      fun op sign same => joins ⟨op, sign, same⟩
    refine .inl ⟨other, ?_⟩
    simp only [operatorRound]
    split
    · rename_i op sign
      exact if_neg (other op sign)
    · rfl

theorem statements_go (closing : Token.Kind) :
    GoesBy (statementRound limit room closing) (fun last => (last.1.reverse, last.2))
      fun state =>
        (statements limit room closing state.1 state.2 (Nat.lt_succ_self _)).outcome := by
  rintro ⟨found, tokens⟩
  obtain ⟨close, round⟩ | ⟨more, round⟩ := statementRound_eq limit room closing found tokens
  · rw [round]
    exact statements_close closing found _ close
  · rw [round]
    refine (statements_eq closing found _ more).trans ?_
    cases (statement limit room tokens).outcome <;> rfl

theorem statementRound_shrinks {closing : Token.Kind} (state next : List Stmt × List Token)
    (onward : statementRound limit room closing state = .ok (some next)) :
    next.2.length < state.2.length := by
  obtain ⟨found, tokens⟩ := state
  obtain ⟨_, round⟩ | ⟨_, round⟩ := statementRound_eq limit room closing found tokens
  · cases round.symm.trans onward
  · obtain ⟨_, read, same⟩ := bind_eq_ok_iff.mp (round.symm.trans onward)
    cases same
    exact (statement_advances limit room).shrinks read

theorem folds_go (p : Precedence) :
    GoesBy (operatorRound limit p) (fun last => last.2)
      fun state => (folds limit state.1 p state.2.1 state.2.2).outcome := by
  rintro ⟨room, left, tokens⟩
  obtain ⟨other, round⟩ | ⟨op, token, after, rfl, sign, same, round⟩ :=
    operatorRound_eq p left tokens
  · rw [round]
    exact folds_stops left other
  · rw [round]
    refine (folds_eq left token after sign same).trans ?_
    cases room with
    | zero => rfl
    | succ room =>
      dsimp only
      cases (level limit room p.tighter after).outcome <;> rfl

theorem operatorRound_shrinks {p : Precedence} (state next : Nat × Expr × List Token)
    (onward : operatorRound limit p state = .ok (some next)) :
    next.2.2.length < state.2.2.length := by
  obtain ⟨room, left, tokens⟩ := state
  obtain ⟨_, round⟩ | ⟨op, token, after, rfl, _, _, round⟩ := operatorRound_eq p left tokens
  · cases round.symm.trans onward
  · cases room with
    | zero => cases round.symm.trans onward
    | succ room =>
      obtain ⟨_, read, same⟩ := bind_eq_ok_iff.mp (round.symm.trans onward)
      cases same
      exact Nat.lt_succ_of_lt ((level_advances limit room p.tighter).shrinks read)

end Loop

/-- Rules make progress and look one token ahead. A statement, an expression and an operator level
take a token wherever they succeed, and of what follows they have seen the type of the next token
and nothing else. The loop over statements and the loop over operators therefore end on every list
of tokens, after at most as many rounds as there are tokens, and they give what the rules give. -/
theorem rules_advance (limit room : Nat) :
    (Advances fun tokens => (statement limit room tokens).outcome) ∧
    (Advances fun tokens => (expression limit room tokens).outcome) ∧
    (∀ p, Advances fun tokens => (level limit room p tokens).outcome) ∧
    (∀ closing found tokens, ∃ n result, n ≤ tokens.length ∧
      Loop (statementRound limit room closing) n (found, tokens) result ∧
      (statements limit room closing found tokens (Nat.lt_succ_self _)).outcome =
        result.map fun last => (last.1.reverse, last.2)) ∧
    (∀ p left tokens, ∃ n result, n ≤ tokens.length ∧
      Loop (operatorRound limit p) n (room, left, tokens) result ∧
      (folds limit room p left tokens).outcome = result.map fun last => last.2) := by
  refine ⟨statement_advances limit room, expression_advances limit room, level_advances limit room,
    fun closing found tokens => ?_, fun p left tokens => ?_⟩
  · obtain ⟨n, result, bounded, loop⟩ :=
      loop_ends (fun state => state.2.length) statementRound_shrinks (found, tokens)
    exact ⟨n, result, bounded, loop, loop.reads (statements_go closing)⟩
  · obtain ⟨n, result, bounded, loop⟩ :=
      loop_ends (fun state => state.2.2.length) operatorRound_shrinks (room, left, tokens)
    exact ⟨n, result, bounded, loop, loop.reads (folds_go p)⟩

end Grammar
end Scriptlet
