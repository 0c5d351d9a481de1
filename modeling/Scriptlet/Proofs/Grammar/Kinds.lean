import Scriptlet.Proofs.Grammar.Room

/-! What the grammar sees of a token. Every rule goes by the kinds of the tokens and never looks at
their lexemes or their places; so tokens of the same kinds are read the same, up to the token that
an error names. -/
namespace Scriptlet

/-- The token without what the grammar does not see. -/
def Token.bare (token : Token) : Token := ⟨token.kind, "", .point .start⟩

@[simp] theorem Token.kind_bare (token : Token) : token.bare.kind = token.kind := rfl

/-- The same error over bare tokens. -/
def SyntaxError.bare (e : SyntaxError) : SyntaxError := ⟨e.cause, e.context, e.found.map Token.bare⟩

namespace Grammar

variable {limit room : Nat}

/-- The same outcome over bare tokens. -/
def bared : Except SyntaxError (α × List Token) → Except SyntaxError (α × List Token)
  | .ok (a, rest) => .ok (a, rest.map Token.bare)
  | .error e => .error e.bare

@[simp] theorem bared_ok (a : α) (rest : List Token) :
    bared (.ok (a, rest)) = .ok (a, rest.map Token.bare) := rfl

@[simp] theorem bared_stop (cause : SyntaxError.Cause) (tokens : List Token) :
    bared (stop cause tokens : Except SyntaxError (α × List Token)) =
      stop cause (tokens.map Token.bare) := by
  simp only [stop, bared, SyntaxError.bare, List.head?_map]

theorem bared_during (rule : Rule) (outcome : Except SyntaxError (α × List Token)) :
    bared (rule.during outcome) = rule.during (bared outcome) := by
  cases outcome <;> rfl

/-- It is enough that what comes next goes on alike. -/
theorem bared_bind {next : α × List Token → Except SyntaxError (β × List Token)}
    (outcome : Except SyntaxError (α × List Token))
    (onward : ∀ a rest, next (a, rest.map Token.bare) = bared (next (a, rest))) :
    bared outcome >>= next = bared (outcome >>= next) := by
  cases outcome with
  | error e => rfl
  | ok read => exact onward read.1 read.2

/-- The same where the rest of the tokens is dropped at last. -/
theorem bared_bind_end {next : α × List Token → Except SyntaxError β}
    (outcome : Except SyntaxError (α × List Token))
    (onward : ∀ a rest, next (a, rest.map Token.bare) =
      (next (a, rest)).mapError SyntaxError.bare) :
    bared outcome >>= next = (outcome >>= next).mapError SyntaxError.bare := by
  cases outcome with
  | error e => rfl
  | ok read => exact onward read.1 read.2

@[simp] theorem ahead_bare (tokens : List Token) :
    ahead (tokens.map Token.bare) = ahead tokens := by
  cases tokens <;> rfl

theorem expect_bare (kind : Token.Kind) (tokens : List Token) :
    (expect kind (tokens.map Token.bare)).outcome = bared (expect kind tokens).outcome := by
  rw [expect_eq, expect_eq, ahead_bare]
  split
  · rw [bared_ok, List.map_tail]
  · rw [bared_stop]

section Expression

/-- The levels of the expression grammar see no more than kinds. -/
def LevelsBare (limit room : Nat) : Prop :=
  ∀ p tokens, (level limit room p (tokens.map Token.bare)).outcome =
    bared (level limit room p tokens).outcome

theorem expression_bare (levels : LevelsBare limit room) (tokens : List Token) :
    (expression limit room (tokens.map Token.bare)).outcome =
      bared (expression limit room tokens).outcome := by
  rw [expression_eq, expression_eq, levels, bared_during]

theorem primary_bare (smaller : ∀ less < room, LevelsBare limit less) (tokens : List Token) :
    (primary limit room (tokens.map Token.bare)).outcome =
      bared (primary limit room tokens).outcome := by
  cases tokens with
  | nil =>
    rw [List.map_nil, primary_nil]
    rfl
  | cons token after =>
    have kind := token.kind_bare
    rw [List.map_cons]
    cases single : atom? token.kind with
    | some atom =>
      rw [primary_atom single, primary_atom (kind ▸ single)]
      rfl
    | none =>
      by_cases opening : token.kind = .leftParen
      · rw [primary_group opening, primary_group (kind.trans opening)]
        cases room with
        | zero => rfl
        | succ room =>
          dsimp only
          rw [expression_bare (smaller room (Nat.lt_succ_self _))]
          refine bared_bind _ fun inner rest => ?_
          rw [expect_bare]
          exact bared_bind _ fun _ _ => rfl
      · rw [primary_other single opening, primary_other (kind ▸ single) (kind ▸ opening)]
        rfl

theorem folds_bare {room : Nat} (smaller : ∀ less < room, LevelsBare limit less) (p : Precedence)
    (left : Expr) (tokens : List Token) :
    (folds limit room p left (tokens.map Token.bare)).outcome =
      bared (folds limit room p left tokens).outcome := by
  by_cases more : ∃ op, ahead tokens = some (.operator op) ∧ op.precedence = p
  · obtain ⟨op, sign, same⟩ := more
    obtain ⟨token, after, rfl, kind⟩ := ahead_eq_some_iff.mp sign
    rw [List.map_cons, folds_eq _ _ _ kind same, folds_eq _ _ _ (token.kind_bare.trans kind) same]
    cases room with
    | zero => rfl
    | succ room =>
      dsimp only
      rw [smaller room (Nat.lt_succ_self _)]
      refine bared_bind _ fun right rest => ?_
      exact folds_bare (fun less h => smaller less (Nat.lt_succ_of_lt h)) p _ _
  · have other : ∀ op, ahead tokens = some (.operator op) → op.precedence ≠ p :=
      fun op sign same => more ⟨op, sign, same⟩
    rw [folds_stops _ other, folds_stops _ (by rwa [ahead_bare])]
    rfl

theorem assigned_bare (smaller : ∀ less < room, LevelsBare limit less) (target : Expr)
    (tokens : List Token) :
    (assigned limit room target (tokens.map Token.bare)).outcome =
      bared (assigned limit room target tokens).outcome := by
  by_cases sign : ahead tokens = some (.operator .assign)
  · obtain ⟨token, after, rfl, kind⟩ := ahead_eq_some_iff.mp sign
    rw [List.map_cons, assigned_eq _ _ _ kind, assigned_eq _ _ _ (token.kind_bare.trans kind)]
    cases target with
    | identifier name =>
      cases room with
      | zero => rfl
      | succ room =>
        dsimp only
        rw [smaller room (Nat.lt_succ_self _)]
        exact bared_bind _ fun _ _ => rfl
    | _ => cases room <;> rfl
  · rw [assigned_stops _ sign, assigned_stops _ (by rwa [ahead_bare])]
    rfl

theorem level_bare (smaller : ∀ less < room, LevelsBare limit less) : LevelsBare limit room := by
  intro p
  induction p using Precedence.tightest_first with
  | primary =>
    intro tokens
    rw [level_primary_eq, level_primary_eq, primary_bare smaller, bared_during]
  | looser p operators ih =>
    intro tokens
    rw [level_eq operators, level_eq operators, ih, bared_during]
    congr 1
    refine bared_bind _ fun first rest => ?_
    simp only [joined]
    split
    · exact assigned_bare smaller _ _
    · exact folds_bare smaller p _ _

theorem levels_bare (limit room : Nat) : LevelsBare limit room := by
  induction room using Nat.strongRecOn with
  | ind room ih => exact level_bare ih

end Expression

section Statement

/-- The statement rule sees no more than kinds. -/
def StatementsBare (limit room : Nat) : Prop :=
  ∀ tokens, (statement limit room (tokens.map Token.bare)).outcome =
    bared (statement limit room tokens).outcome

theorem expressionStatement_bare (tokens : List Token) :
    (expressionStatement limit room (tokens.map Token.bare)).outcome =
      bared (expressionStatement limit room tokens).outcome := by
  rw [expressionStatement_eq, expressionStatement_eq, expression_bare (levels_bare limit room),
    bared_during]
  congr 1
  refine bared_bind _ fun value rest => ?_
  rw [expect_bare]
  exact bared_bind _ fun _ _ => rfl

theorem ifStatement_bare (inner : StatementsBare limit room) (tokens : List Token) :
    (ifStatement limit room (tokens.map Token.bare)).outcome =
      bared (ifStatement limit room tokens).outcome := by
  rw [ifStatement_eq, ifStatement_eq, expect_bare, bared_during]
  congr 1
  refine bared_bind _ fun _ opening => ?_
  rw [expression_bare (levels_bare limit room)]
  refine bared_bind _ fun condition closing => ?_
  rw [expect_bare]
  refine bared_bind _ fun _ branch => ?_
  rw [inner]
  refine bared_bind _ fun first rest => ?_
  simp only [ahead_bare]
  split
  · rw [← List.map_tail, inner]
    exact bared_bind _ fun _ _ => rfl
  · rfl

theorem atClose_bare {closing : Token.Kind} {tokens : List Token} :
    atClose closing (tokens.map Token.bare) ↔ atClose closing tokens := by
  rw [atClose, ahead_bare, atClose]

theorem statements_bare (inner : StatementsBare limit room) (closing : Token.Kind)
    (found : List Stmt) (tokens : List Token) (within : tokens.length < bound)
    (within' : (tokens.map Token.bare).length < bound') :
    (statements limit room closing found (tokens.map Token.bare) within').outcome =
      bared (statements limit room closing found tokens within).outcome := by
  induction h : tokens.length using Nat.strongRecOn generalizing tokens found bound bound' with
  | ind n ih =>
    subst h
    by_cases close : atClose closing tokens
    · rw [statements_close _ _ _ close, statements_close _ _ _ (atClose_bare.mpr close)]
      rfl
    · rw [statements_eq _ _ _ close, statements_eq _ _ _ (mt atClose_bare.mp close), inner]
      cases first : (statement limit room tokens).outcome with
      | error e => rfl
      | ok next => exact ih _ (outcome_within first) _ _ _ _ rfl

theorem block_bare (inner : StatementsBare limit room) (tokens : List Token) :
    (block limit room (tokens.map Token.bare)).outcome =
      bared (block limit room tokens).outcome := by
  rw [block_eq, block_eq, bared_during, statements_bare inner _ _ tokens (Nat.lt_succ_self _)]
  congr 1
  refine bared_bind _ fun body rest => ?_
  rw [expect_bare]
  exact bared_bind _ fun _ _ => rfl

theorem statement_bare (limit room : Nat) : StatementsBare limit room := by
  induction room with
  | zero =>
    intro tokens
    rw [statement_zero, statement_zero, bared_during, bared_stop]
  | succ room ih =>
    intro tokens
    rw [statement_succ, statement_succ, bared_during, ahead_bare, ← List.map_tail]
    congr 1
    split
    · exact block_bare ih _
    · split
      · exact ifStatement_bare ih _
      · exact expressionStatement_bare tokens

end Statement

theorem mapError_during (rule : Rule) (result : Except SyntaxError α) :
    (rule.during result).mapError SyntaxError.bare =
      rule.during (result.mapError SyntaxError.bare) := by
  cases result <;> rfl

theorem program_bare (limit : Nat) (tokens : List Token) :
    program limit (tokens.map Token.bare) = (program limit tokens).mapError SyntaxError.bare := by
  rw [program_eq, program_eq, mapError_during,
    statements_bare (statement_bare limit limit) _ _ tokens (Nat.lt_succ_self _)]
  congr 1
  refine bared_bind_end _ fun body rest => ?_
  rw [expect_bare]
  exact bared_bind_end _ fun _ _ => rfl

theorem singleExpression_bare (limit : Nat) (tokens : List Token) :
    singleExpression limit (tokens.map Token.bare) =
      (singleExpression limit tokens).mapError SyntaxError.bare := by
  rw [singleExpression_eq, singleExpression_eq, mapError_during,
    expression_bare (levels_bare limit limit)]
  congr 1
  refine bared_bind_end _ fun value rest => ?_
  rw [expect_bare]
  exact bared_bind_end _ fun _ _ => rfl

/-- The kinds of the tokens decide what the parser makes of them: the tree, or the cause and the
context of the error and the kind of token that it found. -/
theorem kinds_decide {tokens others : List Token}
    (same : tokens.map Token.kind = others.map Token.kind) (limit : Nat) :
    (program limit tokens).mapError SyntaxError.bare =
        (program limit others).mapError SyntaxError.bare ∧
      (singleExpression limit tokens).mapError SyntaxError.bare =
        (singleExpression limit others).mapError SyntaxError.bare := by
  have bare : ∀ tokens : List Token, tokens.map Token.bare =
      (tokens.map Token.kind).map fun kind => ⟨kind, "", .point .start⟩ := fun tokens => by
    rw [List.map_map]
    rfl
  have stripped : tokens.map Token.bare = others.map Token.bare := by
    rw [bare, bare, same]
  rw [← program_bare, ← program_bare, ← singleExpression_bare, ← singleExpression_bare, stripped]
  exact ⟨rfl, rfl⟩

end Grammar
end Scriptlet
