import Mathlib.Data.List.Basic
import Scriptlet.Proofs.Grammar.Room

/-! What the nesting limit decides. Two runs of a rule over the same tokens, one of them with more
room, take the same steps until the first one has no room left; so a smaller limit can cut parsing
short, and it changes nothing else. -/
namespace Scriptlet
namespace Grammar

variable {limit limit' extra room : Nat}

/-- The run with less room does what the other one does, unless it stops at its limit. -/
def Truncates (limit : Nat) (short long : Except SyntaxError α) : Prop :=
  TooDeep limit short ∨ short = long

namespace Truncates

theorem refl (result : Except SyntaxError α) : Truncates limit result result := .inr rfl

/-- A run stops at its limit, whatever the other one does. -/
theorem stopped (tokens : List Token) (long : Except SyntaxError α) :
    Truncates limit (stop (.nestingLimit limit) tokens) long := .inl (tooDeep_stop tokens)

theorem during {short long : Except SyntaxError α} (truncates : Truncates limit short long)
    (rule : Rule) : Truncates limit (rule.during short) (rule.during long) := by
  rcases truncates with deep | rfl
  · exact .inl (deep.during rule)
  · exact .refl _

theorem bind {short long : Except SyntaxError α} {next more : α → Except SyntaxError β}
    (truncates : Truncates limit short long)
    (onward : ∀ a, short = .ok a → Truncates limit (next a) (more a)) :
    Truncates limit (short >>= next) (long >>= more) := by
  rcases truncates with deep | rfl
  · exact .inl (deep.bind next)
  · cases short with
    | error e => exact .refl _
    | ok a => exact onward a rfl

end Truncates

section Expression

/-- What the levels of the expression grammar do with `extra` room. -/
def LevelsTruncate (limit limit' extra room : Nat) : Prop :=
  ∀ p tokens, Truncates limit (level limit room p tokens).outcome
    (level limit' (room + extra) p tokens).outcome

theorem expression_truncates (levels : LevelsTruncate limit limit' extra room)
    (tokens : List Token) :
    Truncates limit (expression limit room tokens).outcome
      (expression limit' (room + extra) tokens).outcome := by
  rw [expression_eq, expression_eq]
  exact (levels _ _).during _

theorem primary_truncates (smaller : ∀ less < room, LevelsTruncate limit limit' extra less)
    (tokens : List Token) :
    Truncates limit (primary limit room tokens).outcome
      (primary limit' (room + extra) tokens).outcome := by
  cases tokens with
  | nil =>
    rw [primary_nil, primary_nil]
    exact .refl _
  | cons token after =>
    cases single : atom? token.kind with
    | some atom =>
      rw [primary_atom single, primary_atom single]
      exact .refl _
    | none =>
      by_cases opening : token.kind = .leftParen
      · rw [primary_group opening, primary_group opening]
        cases room with
        | zero => exact .stopped _ _
        | succ room =>
          rw [Nat.succ_add]
          have inner := smaller room (Nat.lt_succ_self _)
          exact (expression_truncates inner after).bind fun _ _ => .refl _
      · rw [primary_other single opening, primary_other single opening]
        exact .refl _

theorem folds_truncates {room : Nat}
    (smaller : ∀ less < room, LevelsTruncate limit limit' extra less) (p : Precedence)
    (left : Expr) (tokens : List Token) :
    Truncates limit (folds limit room p left tokens).outcome
      (folds limit' (room + extra) p left tokens).outcome := by
  by_cases more : ∃ op, ahead tokens = some (.operator op) ∧ op.precedence = p
  · obtain ⟨op, sign, same⟩ := more
    obtain ⟨token, after, rfl, kind⟩ := ahead_eq_some_iff.mp sign
    rw [folds_eq _ _ _ kind same, folds_eq _ _ _ kind same]
    cases room with
    | zero => exact .stopped _ _
    | succ room =>
      rw [Nat.succ_add]
      refine (smaller room (Nat.lt_succ_self _) _ _).bind fun right _ => ?_
      exact folds_truncates (fun less h => smaller less (Nat.lt_succ_of_lt h)) p _ _
  · have other : ∀ op, ahead tokens = some (.operator op) → op.precedence ≠ p :=
      fun op sign same => more ⟨op, sign, same⟩
    rw [folds_stops _ other, folds_stops _ other]
    exact .refl _

theorem assigned_truncates (smaller : ∀ less < room, LevelsTruncate limit limit' extra less)
    (target : Expr) (tokens : List Token) :
    Truncates limit (assigned limit room target tokens).outcome
      (assigned limit' (room + extra) target tokens).outcome := by
  by_cases sign : ahead tokens = some (.operator .assign)
  · obtain ⟨token, after, rfl, kind⟩ := ahead_eq_some_iff.mp sign
    rw [assigned_eq _ _ _ kind, assigned_eq _ _ _ kind]
    cases target with
    | identifier name =>
      cases room with
      | zero => exact .stopped _ _
      | succ room =>
        rw [Nat.succ_add]
        exact (smaller room (Nat.lt_succ_self _) _ _).bind fun _ _ => .refl _
    | _ => exact .refl _
  · rw [assigned_stops _ sign, assigned_stops _ sign]
    exact .refl _

theorem level_truncates (smaller : ∀ less < room, LevelsTruncate limit limit' extra less) :
    LevelsTruncate limit limit' extra room := by
  intro p
  induction p using Precedence.tightest_first with
  | primary =>
    intro tokens
    rw [level_primary_eq, level_primary_eq]
    exact (primary_truncates smaller tokens).during _
  | looser p operators ih =>
    intro tokens
    rw [level_eq operators, level_eq operators]
    refine ((ih tokens).bind fun first _ => ?_).during _
    simp only [joined]
    split
    · exact assigned_truncates smaller _ _
    · exact folds_truncates smaller p _ _

theorem levels_truncate (limit limit' extra room : Nat) :
    LevelsTruncate limit limit' extra room := by
  induction room using Nat.strongRecOn with
  | ind room ih => exact level_truncates ih

end Expression

section Statement

/-- What the statement rule does with `extra` room. -/
def StatementsTruncate (limit limit' extra room : Nat) : Prop :=
  ∀ tokens, Truncates limit (statement limit room tokens).outcome
    (statement limit' (room + extra) tokens).outcome

theorem expressionStatement_truncates (tokens : List Token) :
    Truncates limit (expressionStatement limit room tokens).outcome
      (expressionStatement limit' (room + extra) tokens).outcome := by
  rw [expressionStatement_eq, expressionStatement_eq]
  have value := expression_truncates (levels_truncate limit limit' extra room) tokens
  exact (value.bind fun _ _ => .refl _).during _

theorem ifStatement_truncates (inner : StatementsTruncate limit limit' extra room)
    (tokens : List Token) :
    Truncates limit (ifStatement limit room tokens).outcome
      (ifStatement limit' (room + extra) tokens).outcome := by
  rw [ifStatement_eq, ifStatement_eq]
  refine Truncates.during ?_ _
  refine Truncates.bind (.refl _) fun opening _ => ?_
  refine (expression_truncates (levels_truncate _ _ _ _) opening.2).bind fun condition _ => ?_
  refine Truncates.bind (.refl _) fun closing _ => ?_
  refine (inner closing.2).bind fun branch _ => ?_
  split
  · exact (inner _).bind fun _ _ => .refl _
  · exact .refl _

theorem statements_truncate (inner : StatementsTruncate limit limit' extra room)
    (closing : Token.Kind) (found : List Stmt) (tokens : List Token)
    (within : tokens.length < bound) :
    Truncates limit (statements limit room closing found tokens within).outcome
      (statements limit' (room + extra) closing found tokens within).outcome := by
  induction h : tokens.length using Nat.strongRecOn generalizing tokens found bound with
  | ind n ih =>
    subst h
    by_cases close : atClose closing tokens
    · rw [statements_close _ _ _ close, statements_close _ _ _ close]
      exact .refl _
    · rw [statements_eq _ _ _ close, statements_eq _ _ _ close]
      exact (inner tokens).bind fun next first => ih _ (outcome_within first) _ _ _ rfl

theorem block_truncates (inner : StatementsTruncate limit limit' extra room)
    (tokens : List Token) :
    Truncates limit (block limit room tokens).outcome
      (block limit' (room + extra) tokens).outcome := by
  rw [block_eq, block_eq]
  exact ((statements_truncate inner _ _ _ _).bind fun _ _ => .refl _).during _

theorem statement_truncates (limit limit' extra room : Nat) :
    StatementsTruncate limit limit' extra room := by
  induction room with
  | zero =>
    intro tokens
    exact .inl (refused_no_room tokens)
  | succ room ih =>
    intro tokens
    rw [Nat.succ_add, statement_succ, statement_succ]
    refine Truncates.during ?_ _
    split
    · exact block_truncates ih _
    · split
      · exact ifStatement_truncates ih _
      · exact expressionStatement_truncates tokens

end Statement

theorem program_truncates (larger : limit ≤ limit') (tokens : List Token) :
    Truncates limit (program limit tokens) (program limit' tokens) := by
  obtain ⟨extra, rfl⟩ := Nat.exists_eq_add_of_le larger
  rw [program_eq, program_eq]
  have body := statements_truncate (statement_truncates limit (limit + extra) extra limit)
    .endOfInput [] tokens (Nat.lt_succ_self _)
  exact (body.bind fun _ _ => .refl _).during _

theorem singleExpression_truncates (larger : limit ≤ limit') (tokens : List Token) :
    Truncates limit (singleExpression limit tokens) (singleExpression limit' tokens) := by
  obtain ⟨extra, rfl⟩ := Nat.exists_eq_add_of_le larger
  rw [singleExpression_eq, singleExpression_eq]
  have value := expression_truncates (levels_truncate limit (limit + extra) extra limit) tokens
  exact (value.bind fun _ _ => .refl _).during _

/-- Under a smaller limit the parser stops at that limit, or it has the same result as under a
greater one: the same tree, or the same error. -/
theorem limit_only_truncates (larger : limit ≤ limit') (tokens : List Token) :
    (TooDeep limit (program limit tokens) ∨ program limit tokens = program limit' tokens) ∧
      (TooDeep limit (singleExpression limit tokens) ∨
        singleExpression limit tokens = singleExpression limit' tokens) :=
  ⟨program_truncates larger tokens, singleExpression_truncates larger tokens⟩

/-- Tokens of these kinds, all at one place. -/
def unplaced (kinds : List Token.Kind) : List Token :=
  kinds.map fun kind => ⟨kind, kind.render, .point .start⟩

/-- The tokens of `(a);`. -/
def groupedName : List Token :=
  unplaced [.leftParen, .identifier "a", .rightParen, .semicolon, .endOfInput]

/-- A group takes one level more than its statement. -/
theorem groupedName_truncated : 1 ≤ 2 ∧
    program 2 groupedName = .ok (.block [.expression (.identifier "a")]) ∧
    TooDeep 1 (program 1 groupedName) := by
  have accepted : program 2 groupedName = .ok (.block [.expression (.identifier "a")]) := by cbv
  have smaller : 1 ≤ 2 := by decide
  refine ⟨smaller, accepted, ?_⟩
  rcases (limit_only_truncates smaller groupedName).1 with deep | same
  · exact deep
  · have refused : (program 1 groupedName).isOk = false := by cbv
    rw [same, accepted] at refused
    contradiction

end Grammar
end Scriptlet
