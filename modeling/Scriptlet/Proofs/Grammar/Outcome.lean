import Scriptlet.Grammar.Statement

/-! The rules of the grammar without their bounds. The outcome of a rule is the node it has read and
the tokens after it. Each rule gets one equation that says its outcome from the outcomes of the
rules it calls; later proofs open no rule. -/
namespace Scriptlet.Grammar

/-- What a rule has read and what it leaves. -/
def Result.outcome (result : Result α bound) : Except SyntaxError (α × List Token) :=
  result.map fun r => (r.node, r.rest)

@[simp] theorem outcome_ok (r : Reading Token α bound) :
    Result.outcome (.ok r) = .ok (r.node, r.rest) := rfl

@[simp] theorem outcome_pure (r : Reading Token α bound) :
    Result.outcome (pure r) = .ok (r.node, r.rest) := rfl

@[simp] theorem outcome_stop (cause : SyntaxError.Cause) (tokens : List Token) :
    Result.outcome (stop cause tokens : Result α bound) = stop cause tokens := rfl

theorem outcome_during (rule : Rule) (result : Result α bound) :
    Result.outcome (rule.during result) = rule.during result.outcome := by
  cases result <;> rfl

theorem outcome_within {result : Result α bound} (read : result.outcome = .ok (a, rest)) :
    rest.length < bound := by
  cases result with
  | error e => contradiction
  | ok r => cases read; exact r.within

/-- An outcome depends on a part of a rule only through the outcome of that part. -/
theorem outcome_bind (part : Result α bound) {next : Reading Token α bound → Result β wider}
    {after : α × List Token → Except SyntaxError (β × List Token)}
    (same : ∀ r, (next r).outcome = after (r.node, r.rest)) :
    Result.outcome (part >>= next) = part.outcome >>= after := by
  cases part with
  | error e => rfl
  | ok r => exact same r

@[simp] theorem bind_ok (a : α) (f : α → Except ε β) : (.ok a : Except ε α) >>= f = f a := rfl

@[simp] theorem bind_error (e : ε) (f : α → Except ε β) :
    (.error e : Except ε α) >>= f = .error e := rfl

theorem during_eq_ok_iff {rule : Rule} {x : Except SyntaxError α} :
    rule.during x = .ok a ↔ x = .ok a := by
  cases x <;> simp

theorem bind_eq_ok_iff {x : Except ε α} {f : α → Except ε β} :
    x >>= f = .ok b ↔ ∃ a, x = .ok a ∧ f a = .ok b := by
  cases x <;> simp

/-- The token kinds that decide how a rule goes on. -/
def ahead (tokens : List Token) : Option Token.Kind := tokens.head?.map Token.kind

@[simp] theorem ahead_nil : ahead [] = none := rfl

@[simp] theorem ahead_cons (token : Token) (tokens : List Token) :
    ahead (token :: tokens) = some token.kind := rfl

theorem ahead_eq_some_iff {tokens : List Token} :
    ahead tokens = some kind ↔ ∃ token after, tokens = token :: after ∧ token.kind = kind := by
  cases tokens with
  | nil => simp
  | cons token after => simp

section Expression

variable {limit room : Nat}

theorem expect_eq (kind : Token.Kind) (tokens : List Token) :
    (expect kind tokens).outcome =
      if ahead tokens = some kind then .ok ((), tokens.tail) else stop (.expected kind) tokens := by
  cases tokens with
  | nil => rfl
  | cons token rest =>
    simp only [expect, ahead_cons, Option.some.injEq, List.tail_cons]
    split <;> rfl

theorem expression_eq (tokens : List Token) :
    (expression limit room tokens).outcome =
      Rule.expression.during (level limit room .assignment tokens).outcome := by
  rw [expression, outcome_during]

theorem level_primary_eq (tokens : List Token) :
    (level limit room .primary tokens).outcome =
      (Rule.level .primary).during (primary limit room tokens).outcome := by
  rw [level, outcome_during, if_pos rfl]

/-- What is read after the first operand of a level. -/
def joined (limit room : Nat) (p : Precedence) (first : Expr) (tokens : List Token) :
    Except SyntaxError (Expr × List Token) :=
  if p = .assignment then (assigned limit room first tokens).outcome
  else (folds limit room p first tokens).outcome

theorem level_eq {p : Precedence} (looser : p ≠ .primary) (tokens : List Token) :
    (level limit room p tokens).outcome =
      (Rule.level p).during ((level limit room p.tighter tokens).outcome >>= fun first =>
        joined limit room p first.1 first.2) := by
  rw [level, outcome_during, if_neg looser]
  congr 1
  apply outcome_bind
  intro first
  simp only [joined]
  split
  · cases assigned limit room first.node first.rest <;> rfl
  · cases folds limit room p first.node first.rest <;> rfl

theorem assigned_stops (target : Expr) {tokens : List Token}
    (other : ahead tokens ≠ some (.operator .assign)) :
    (assigned limit room target tokens).outcome = .ok (target, tokens) := by
  unfold assigned
  split
  · exact absurd rfl other
  · rfl

theorem assigned_eq (target : Expr) (token : Token) (after : List Token)
    (sign : token.kind = .operator .assign) :
    (assigned limit room target (token :: after)).outcome =
      match target, room with
      | .identifier _, 0 => stop (.nestingLimit limit) (token :: after)
      | .identifier name, room + 1 =>
        (level limit room .assignment after).outcome >>= fun value =>
          .ok (.binary .assign (.identifier name) value.1, value.2)
      | _, _ => stop .invalidAssignmentTarget (token :: after) := by
  obtain ⟨kind, lexeme, span⟩ := token
  subst sign
  cases target with
  | identifier name =>
    cases room with
    | zero => rw [assigned]; rfl
    | succ room =>
      rw [assigned]
      exact outcome_bind _ fun value => rfl
  | _ => cases room <;> (rw [assigned] <;> simp)

theorem folds_stops {p : Precedence} (left : Expr) {tokens : List Token}
    (other : ∀ op, ahead tokens = some (.operator op) → op.precedence ≠ p) :
    (folds limit room p left tokens).outcome = .ok (left, tokens) := by
  unfold folds
  split
  · rename_i op lexeme span after
    rw [if_neg (other op rfl)]
    rfl
  · rfl

theorem folds_eq {p : Precedence} (left : Expr) (token : Token) (after : List Token)
    (sign : token.kind = .operator op) (same : op.precedence = p) :
    (folds limit room p left (token :: after)).outcome =
      match room with
      | 0 => stop (.nestingLimit limit) (token :: after)
      | room + 1 =>
        (level limit room p.tighter after).outcome >>= fun right =>
          (folds limit room p (.binary op left right.1) right.2).outcome := by
  obtain ⟨kind, lexeme, span⟩ := token
  subst sign
  cases room with
  | zero => rw [folds.eq_def]; simp only [same, if_true]; rfl
  | succ room =>
    rw [folds.eq_def]
    simp only [same, if_true]
    apply outcome_bind
    intro right
    cases folds limit room p (.binary op left right.node) right.rest <;> rfl

/-- The expression that a single token stands for. -/
def atom? : Token.Kind → Option Expr
  | .number value => some (.number value)
  | .string value => some (.string value)
  | .boolean value => some (.boolean value)
  | .identifier name => some (.identifier name)
  | _ => none

theorem primary_nil : (primary limit room []).outcome = stop .expectedExpression [] := by
  rw [primary]
  rfl

theorem primary_atom {token : Token} {after : List Token} (single : atom? token.kind = some e) :
    (primary limit room (token :: after)).outcome = .ok (e, after) := by
  obtain ⟨kind, lexeme, span⟩ := token
  rw [primary.eq_def]
  cases kind <;> first | cases single; rfl | contradiction

theorem primary_group {token : Token} {after : List Token} (opening : token.kind = .leftParen) :
    (primary limit room (token :: after)).outcome =
      match room with
      | 0 => stop (.nestingLimit limit) (token :: after)
      | room + 1 =>
        (expression limit room after).outcome >>= fun inner =>
          (expect .rightParen inner.2).outcome >>= fun close => .ok (inner.1, close.2) := by
  obtain ⟨kind, lexeme, span⟩ := token
  subst opening
  rw [primary.eq_def]
  cases room with
  | zero => rfl
  | succ room =>
    apply outcome_bind
    intro inner
    exact outcome_bind _ fun close => rfl

theorem primary_other {token : Token} {after : List Token} (single : atom? token.kind = none)
    (opening : token.kind ≠ .leftParen) :
    (primary limit room (token :: after)).outcome = stop .expectedExpression (token :: after) := by
  obtain ⟨kind, lexeme, span⟩ := token
  rw [primary.eq_def]
  cases kind <;> first | rfl | contradiction

end Expression

section Statement

variable {limit room : Nat}

theorem expressionStatement_eq (tokens : List Token) :
    (expressionStatement limit room tokens).outcome =
      Rule.expressionStatement.during ((expression limit room tokens).outcome >>= fun value =>
        (expect .semicolon value.2).outcome >>= fun semicolon =>
          .ok (.expression value.1, semicolon.2)) := by
  rw [expressionStatement, outcome_during]
  congr 1
  apply outcome_bind
  intro value
  exact outcome_bind _ fun semicolon => rfl

theorem statement_zero (tokens : List Token) :
    (statement limit 0 tokens).outcome =
      Rule.statement.during (stop (.nestingLimit limit) tokens) := by
  rw [statement, outcome_during]
  rfl

theorem statement_succ (tokens : List Token) :
    (statement limit (room + 1) tokens).outcome =
      Rule.statement.during
        (if ahead tokens = some .leftBrace then (block limit room tokens.tail).outcome
        else if ahead tokens = some .ifKeyword then (ifStatement limit room tokens.tail).outcome
        else (expressionStatement limit room tokens).outcome) := by
  rw [statement.eq_def, outcome_during]
  cases tokens with
  | nil => rfl
  | cons token after =>
    obtain ⟨kind, lexeme, span⟩ := token
    congr 1
    cases kind with
    | leftBrace =>
      simp
      cases block limit room after <;> rfl
    | ifKeyword =>
      simp
      cases ifStatement limit room after <;> rfl
    | _ => simp

theorem statement_block {token : Token} (sign : token.kind = .leftBrace) (after : List Token) :
    (statement limit (room + 1) (token :: after)).outcome =
      Rule.statement.during (block limit room after).outcome := by
  rw [statement_succ, ahead_cons, sign, if_pos rfl]
  rfl

theorem statement_if {token : Token} (sign : token.kind = .ifKeyword) (after : List Token) :
    (statement limit (room + 1) (token :: after)).outcome =
      Rule.statement.during (ifStatement limit room after).outcome := by
  rw [statement_succ, ahead_cons, sign, if_neg (by simp), if_pos rfl]
  rfl

theorem statement_other {tokens : List Token} (brace : ahead tokens ≠ some .leftBrace)
    (keyword : ahead tokens ≠ some .ifKeyword) :
    (statement limit (room + 1) tokens).outcome =
      Rule.statement.during (expressionStatement limit room tokens).outcome := by
  rw [statement_succ, if_neg brace, if_neg keyword]

theorem ifStatement_eq (tokens : List Token) :
    (ifStatement limit room tokens).outcome =
      Rule.ifStatement.during ((expect .leftParen tokens).outcome >>= fun opening =>
        (expression limit room opening.2).outcome >>= fun condition =>
        (expect .rightParen condition.2).outcome >>= fun closing =>
        (statement limit room closing.2).outcome >>= fun branch =>
          if ahead branch.2 = some .elseKeyword then
            (statement limit room branch.2.tail).outcome >>= fun otherwise =>
              .ok (.ifThenElse condition.1 branch.1 otherwise.1, otherwise.2)
          else .ok (.ifThen condition.1 branch.1, branch.2)) := by
  rw [ifStatement, outcome_during]
  congr 1
  apply outcome_bind
  intro opening
  apply outcome_bind
  intro condition
  apply outcome_bind
  intro closing
  apply outcome_bind
  intro branch
  split
  · rename_i following
    have tail := congrArg List.tail following
    rw [List.tail_cons] at tail
    rw [if_pos (by rw [following]; rfl), tail]
    apply outcome_bind
    intro otherwise
    rfl
  · rename_i other
    rw [if_neg]
    · rfl
    · intro sign
      obtain ⟨⟨kind, lexeme, span⟩, after, same, rfl⟩ := ahead_eq_some_iff.mp sign
      exact other _ _ _ same

theorem block_eq (tokens : List Token) :
    (block limit room tokens).outcome =
      Rule.block.during
        ((statements limit room .rightBrace [] tokens (Nat.lt_succ_self _)).outcome >>= fun body =>
          (expect .rightBrace body.2).outcome >>= fun closing =>
            .ok (.block body.1, closing.2)) := by
  rw [block, outcome_during]
  congr 1
  apply outcome_bind
  intro body
  exact outcome_bind _ fun closing => rfl

/-- Where a list of statements ends. -/
def atClose (closing : Token.Kind) (tokens : List Token) : Prop :=
  ∀ kind, ahead tokens = some kind → kind = closing ∨ kind = .endOfInput

theorem statements_close (closing : Token.Kind) (found : List Stmt) {tokens : List Token}
    (within : tokens.length < bound) (close : atClose closing tokens) :
    (statements limit room closing found tokens within).outcome = .ok (found.reverse, tokens) := by
  cases tokens with
  | nil => rw [statements]; rfl
  | cons token after => rw [statements, if_pos (close token.kind rfl)]; rfl

/-- The bound of a list of statements does not matter. -/
theorem statements_bound (closing : Token.Kind) (found : List Stmt) (tokens : List Token)
    (within : tokens.length < bound) (within' : tokens.length < bound') :
    (statements limit room closing found tokens within).outcome =
      (statements limit room closing found tokens within').outcome := by
  induction h : tokens.length using Nat.strongRecOn generalizing tokens found with
  | ind n ih =>
    subst h
    cases tokens with
    | nil => rw [statements, statements]; rfl
    | cons token after =>
      rw [statements, statements]
      split
      · rfl
      · cases statement limit room (token :: after) with
        | error e => rfl
        | ok next => exact ih _ next.within _ _ _ _ rfl

theorem statements_eq (closing : Token.Kind) (found : List Stmt) {tokens : List Token}
    (within : tokens.length < bound) (more : ¬ atClose closing tokens) :
    (statements limit room closing found tokens within).outcome =
      (statement limit room tokens).outcome >>= fun next =>
        (statements limit room closing (next.1 :: found) next.2
          (Nat.lt_succ_self next.2.length)).outcome := by
  cases tokens with
  | nil => exact absurd (fun _ first => by contradiction) more
  | cons token after =>
    have other : ¬ (token.kind = closing ∨ token.kind = .endOfInput) := fun close =>
      more fun kind same => Option.some.inj same ▸ close
    rw [statements, if_neg other]
    apply outcome_bind
    intro next
    exact statements_bound ..

end Statement

theorem program_eq (limit : Nat) (tokens : List Token) :
    program limit tokens = Rule.program.during
      ((statements limit limit .endOfInput [] tokens (Nat.lt_succ_self _)).outcome >>= fun body =>
        (expect .endOfInput body.2).outcome >>= fun _ => .ok (.block body.1)) := by
  rw [program]
  congr 1
  cases statements limit limit .endOfInput [] tokens (Nat.lt_succ_self _) with
  | error e => rfl
  | ok body => simp only [outcome_ok, bind_ok]; cases expect .endOfInput body.rest <;> rfl

theorem singleExpression_eq (limit : Nat) (tokens : List Token) :
    singleExpression limit tokens = Rule.singleExpression.during
      ((expression limit limit tokens).outcome >>= fun value =>
        (expect .endOfInput value.2).outcome >>= fun _ => .ok value.1) := by
  rw [singleExpression]
  congr 1
  cases expression limit limit tokens with
  | error e => rfl
  | ok value => simp only [outcome_ok, bind_ok]; cases expect .endOfInput value.rest <;> rfl

end Scriptlet.Grammar
