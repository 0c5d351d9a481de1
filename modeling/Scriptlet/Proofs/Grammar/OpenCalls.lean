import Scriptlet.Proofs.Grammar.ValidPrefix

/-! The calls that are open when a syntax error is found. A rule calls others at certain places: at
its first token, or behind what it has read so far. An error stands at the end of a chain of such
calls, none of which completes, and its context names their rules. So it names no rule that has been
completed, however many there were on the way. -/
namespace Scriptlet

/-- The rules that a rule calls. -/
def Rule.calls : Rule → List Rule
  | program => [statement]
  | singleExpression => [expression]
  | statement => [block, ifStatement, expressionStatement]
  | block => [statement]
  | ifStatement => [expression, statement]
  | expressionStatement => [expression]
  | expression => [level .assignment]
  | level .assignment => [level .logicalOr, level .assignment]
  | level .logicalOr => [level .logicalAnd]
  | level .logicalAnd => [level .equality]
  | level .equality => [level .relational]
  | level .relational => [level .additive]
  | level .additive => [level .multiplicative]
  | level .multiplicative => [level .primary]
  | level .primary => [expression]

/-- The rules that can stop for a cause by themselves. -/
def SyntaxError.Cause.raisers : Cause → List Rule
  | expectedExpression => [.level .primary]
  | invalidAssignmentTarget => [.level .assignment]
  | expected .rightBrace => [.block]
  | expected .semicolon => [.expressionStatement]
  | expected .leftParen => [.ifStatement]
  | expected .rightParen => [.level .primary, .ifStatement]
  | expected .endOfInput => [.program, .singleExpression]
  | expected _ => []
  | nestingLimit _ => [.statement, .level .assignment, .level .logicalOr, .level .logicalAnd,
      .level .equality, .level .relational, .level .additive, .level .multiplicative,
      .level .primary]

namespace Grammar

/-- A call of a rule: how much room it has, and the tokens that it begins at. -/
structure Call where
  rule : Rule
  room : Nat
  tokens : List Token

/-- Whether a call reads its tokens to the end of its rule. The two entries have all the room that
there is. -/
def Call.completes (limit : Nat) : Call → Bool
  | ⟨.program, _, tokens⟩ => (Grammar.program limit tokens).isOk
  | ⟨.singleExpression, _, tokens⟩ => (Grammar.singleExpression limit tokens).isOk
  | ⟨.statement, room, tokens⟩ => (Grammar.statement limit room tokens).outcome.isOk
  | ⟨.ifStatement, room, tokens⟩ => (Grammar.ifStatement limit room tokens).outcome.isOk
  | ⟨.block, room, tokens⟩ => (Grammar.block limit room tokens).outcome.isOk
  | ⟨.expressionStatement, room, tokens⟩ =>
    (Grammar.expressionStatement limit room tokens).outcome.isOk
  | ⟨.expression, room, tokens⟩ => (Grammar.expression limit room tokens).outcome.isOk
  | ⟨.level p, room, tokens⟩ => (Grammar.level limit room p tokens).outcome.isOk

/-- From the first tokens on, statements are read in a row up to the others, before any of which
the row is not closed. -/
inductive StatementsRead (limit room : Nat) (closing : Token.Kind) :
    List Token → List Token → Prop where
  | none : StatementsRead limit room closing tokens tokens
  | next : StatementsRead limit room closing tokens between → ¬ atClose closing between →
      (statement limit room between).outcome = .ok (s, rest) →
      StatementsRead limit room closing tokens rest

/-- From the first tokens on, operators of one strength are read with their right operands up to the
others. Each of them takes a level. -/
inductive OperatorsRead (limit : Nat) (p : Precedence) :
    Nat → List Token → Nat → List Token → Prop where
  | none : OperatorsRead limit p room tokens room tokens
  | next : OperatorsRead limit p room tokens (left + 1) (token :: after) →
      token.kind = .operator op → op.precedence = p →
      (level limit left p.tighter after).outcome = .ok (e, rest) →
      OperatorsRead limit p room tokens left rest

/-- The first call makes the second one, having completed all that it has read before. -/
inductive Opens (limit : Nat) : Call → Call → Prop where
  | topLevel : StatementsRead limit limit .endOfInput tokens rest → ¬ atClose .endOfInput rest →
      Opens limit ⟨.program, limit, tokens⟩ ⟨.statement, limit, rest⟩
  | whole : Opens limit ⟨.singleExpression, limit, tokens⟩ ⟨.expression, limit, tokens⟩
  | block : token.kind = .leftBrace →
      Opens limit ⟨.statement, room + 1, token :: after⟩ ⟨.block, room, after⟩
  | conditional : token.kind = .ifKeyword →
      Opens limit ⟨.statement, room + 1, token :: after⟩ ⟨.ifStatement, room, after⟩
  | plain : ahead tokens ≠ some .leftBrace → ahead tokens ≠ some .ifKeyword →
      Opens limit ⟨.statement, room + 1, tokens⟩ ⟨.expressionStatement, room, tokens⟩
  | enclosed : StatementsRead limit room .rightBrace tokens rest → ¬ atClose .rightBrace rest →
      Opens limit ⟨.block, room, tokens⟩ ⟨.statement, room, rest⟩
  | condition : opening.kind = .leftParen →
      Opens limit ⟨.ifStatement, room, opening :: after⟩ ⟨.expression, room, after⟩
  | branch : opening.kind = .leftParen → closing.kind = .rightParen →
      (expression limit room after).outcome = .ok (e, closing :: rest) →
      Opens limit ⟨.ifStatement, room, opening :: after⟩ ⟨.statement, room, rest⟩
  | otherwise : opening.kind = .leftParen → closing.kind = .rightParen →
      (expression limit room after).outcome = .ok (e, closing :: between) →
      (statement limit room between).outcome = .ok (s, keyword :: rest) →
      keyword.kind = .elseKeyword →
      Opens limit ⟨.ifStatement, room, opening :: after⟩ ⟨.statement, room, rest⟩
  | value : Opens limit ⟨.expressionStatement, room, tokens⟩ ⟨.expression, room, tokens⟩
  | loosest : Opens limit ⟨.expression, room, tokens⟩ ⟨.level .assignment, room, tokens⟩
  | operand : p ≠ .primary → Opens limit ⟨.level p, room, tokens⟩ ⟨.level p.tighter, room, tokens⟩
  | right : p ≠ .primary → p ≠ .assignment →
      (level limit room p.tighter tokens).outcome = .ok (first, between) →
      OperatorsRead limit p room between (left + 1) (token :: after) → token.kind = .operator op →
      op.precedence = p →
      Opens limit ⟨.level p, room, tokens⟩ ⟨.level p.tighter, left, after⟩
  | assigned : (level limit (room + 1) .logicalOr tokens).outcome =
        .ok (.identifier name, token :: after) → token.kind = .operator .assign →
      Opens limit ⟨.level .assignment, room + 1, tokens⟩ ⟨.level .assignment, room, after⟩
  | group : opening.kind = .leftParen →
      Opens limit ⟨.level .primary, room + 1, opening :: after⟩ ⟨.expression, room, after⟩

/-- A call stops by itself for a cause, having completed all that it has read before. -/
inductive Raises (limit : Nat) : Call → SyntaxError.Cause → Prop where
  | noStatement : Raises limit ⟨.statement, 0, tokens⟩ (.nestingLimit limit)
  | noGroup : token.kind = .leftParen →
      Raises limit ⟨.level .primary, 0, token :: after⟩ (.nestingLimit limit)
  | noValue : (level limit 0 .logicalOr tokens).outcome = .ok (.identifier name, token :: after) →
      token.kind = .operator .assign →
      Raises limit ⟨.level .assignment, 0, tokens⟩ (.nestingLimit limit)
  | noRight : p ≠ .primary → p ≠ .assignment →
      (level limit room p.tighter tokens).outcome = .ok (first, between) →
      OperatorsRead limit p room between 0 (token :: after) → token.kind = .operator op →
      op.precedence = p → Raises limit ⟨.level p, room, tokens⟩ (.nestingLimit limit)
  | noExpression : (∀ kind, ahead tokens = some kind → atom? kind = none ∧ kind ≠ .leftParen) →
      Raises limit ⟨.level .primary, room, tokens⟩ .expectedExpression
  | noTarget : (level limit room .logicalOr tokens).outcome = .ok (target, token :: after) →
      token.kind = .operator .assign → (∀ name, target ≠ .identifier name) →
      Raises limit ⟨.level .assignment, room, tokens⟩ .invalidAssignmentTarget
  | openGroup : opening.kind = .leftParen →
      (expression limit room after).outcome = .ok (e, rest) → ahead rest ≠ some .rightParen →
      Raises limit ⟨.level .primary, room + 1, opening :: after⟩ (.expected .rightParen)
  | openValue : (expression limit room tokens).outcome = .ok (e, rest) →
      ahead rest ≠ some .semicolon →
      Raises limit ⟨.expressionStatement, room, tokens⟩ (.expected .semicolon)
  | noCondition : ahead tokens ≠ some .leftParen →
      Raises limit ⟨.ifStatement, room, tokens⟩ (.expected .leftParen)
  | openCondition : opening.kind = .leftParen →
      (expression limit room after).outcome = .ok (e, rest) → ahead rest ≠ some .rightParen →
      Raises limit ⟨.ifStatement, room, opening :: after⟩ (.expected .rightParen)
  | openBlock : StatementsRead limit room .rightBrace tokens rest → atClose .rightBrace rest →
      ahead rest ≠ some .rightBrace → Raises limit ⟨.block, room, tokens⟩ (.expected .rightBrace)
  | openProgram : StatementsRead limit limit .endOfInput tokens rest →
      atClose .endOfInput rest → ahead rest ≠ some .endOfInput →
      Raises limit ⟨.program, limit, tokens⟩ (.expected .endOfInput)
  | openWhole : (expression limit limit tokens).outcome = .ok (e, rest) →
      ahead rest ≠ some .endOfInput →
      Raises limit ⟨.singleExpression, limit, tokens⟩ (.expected .endOfInput)

/-- Open calls from the outermost one on: none of them completes, each has made the next one, and
the last one stops by itself. -/
inductive Live (limit : Nat) (cause : SyntaxError.Cause) : List Call → Prop where
  | raised : Raises limit call cause → call.completes limit = false → Live limit cause [call]
  | opened : Opens limit call callee → call.completes limit = false →
      Live limit cause (callee :: calls) → Live limit cause (call :: callee :: calls)

/-- A call is made along an edge of the grammar. -/
theorem Opens.calls (opens : Opens limit call callee) : callee.rule ∈ call.rule.calls := by
  have tighter {p : Precedence} (operators : p ≠ .primary) :
      Rule.level p.tighter ∈ (Rule.level p).calls := by
    cases p <;> first | contradiction | exact List.mem_cons_self ..
  cases opens with
  | operand operators => exact tighter operators
  | right operators => exact tighter operators
  | _ => simp [Rule.calls]

/-- The entries are called by no rule. -/
theorem Opens.inside (opens : Opens limit call callee) :
    callee.rule ≠ .program ∧ callee.rule ≠ .singleExpression := by
  cases opens <;> simp

/-- A call stops for a cause that its rule can stop for. -/
theorem Raises.raiser (raises : Raises limit call cause) : call.rule ∈ cause.raisers := by
  have nested (p : Precedence) :
      Rule.level p ∈ SyntaxError.Cause.raisers (.nestingLimit limit) := by
    cases p <;> simp [SyntaxError.Cause.raisers]
  cases raises with
  | noRight => exact nested _
  | _ => simp [SyntaxError.Cause.raisers]

namespace Live

variable {limit : Nat} {cause : SyntaxError.Cause} {calls : List Call}

theorem chain (live : Live limit cause calls) : calls.IsChain (Opens limit) := by
  induction live with
  | raised => exact .singleton _
  | opened opens _ _ ih => exact .cons_cons opens ih

theorem incomplete (live : Live limit cause calls) :
    ∀ call ∈ calls, call.completes limit = false := by
  induction live with
  | raised _ stops => simpa using stops
  | opened _ stops _ ih => exact List.forall_mem_cons.mpr ⟨stops, ih⟩

theorem last (live : Live limit cause calls) :
    ∃ call, calls.getLast? = some call ∧ Raises limit call cause := by
  induction live with
  | raised raises => exact ⟨_, rfl, raises⟩
  | opened _ _ _ ih => rwa [List.getLast?_cons_cons]

theorem inside (live : Live limit cause calls) :
    ∀ call ∈ calls.tail, call.rule ≠ .program ∧ call.rule ≠ .singleExpression := by
  induction live with
  | raised => simp
  | opened opens _ _ ih => exact List.forall_mem_cons.mpr ⟨opens.inside, ih⟩

/-- Only an entry misses the end of the input, and no other call has made it. -/
theorem alone (live : Live limit (.expected .endOfInput) (call :: calls)) : calls = [] := by
  obtain ⟨last, final, raises⟩ := live.last
  have entry : last.rule = .program ∨ last.rule = .singleExpression := by
    simpa [SyntaxError.Cause.raisers] using raises.raiser
  cases calls with
  | nil => rfl
  | cons callee calls =>
    rw [List.getLast?_cons_cons] at final
    have inside := live.inside last (List.mem_of_getLast? final)
    rcases entry with same | same
    · exact absurd same inside.1
    · exact absurd same inside.2

end Live

end Grammar
end Scriptlet
