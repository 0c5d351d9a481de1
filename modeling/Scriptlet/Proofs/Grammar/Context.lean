import Mathlib.Data.List.Chain
import Scriptlet.Proofs.Grammar.OpenCalls

/-! The context of a syntax error. Wherever a rule fails, the error has come about in the calls that
are open there: the context names their rules, and all tokens before the error stand before the end
mark. -/
namespace Scriptlet
namespace Grammar

variable {limit room : Nat} {call : Call}

/-- An error that comes about within a call, seen from inside its rule: the rule stops by itself, or
a call that it has opened fails. -/
def Within (limit : Nat) (call : Call) (cause : SyntaxError.Cause) (context : List Rule)
    (kinds : List Token.Kind) : Prop :=
  .endOfInput ∉ kinds ∧ (context = [] ∧ Raises limit call cause ∨ ∃ callee calls,
    Opens limit call callee ∧ Live limit cause (callee :: calls) ∧
      context = (callee :: calls).map Call.rule)

/-- An error that a call fails with: the context names the calls that are open. -/
def FailsIn (limit : Nat) (call : Call) (cause : SyntaxError.Cause) (context : List Rule)
    (kinds : List Token.Kind) : Prop :=
  .endOfInput ∉ kinds ∧
    ∃ calls, Live limit cause (call :: calls) ∧ context = (call :: calls).map Call.rule

/-- A rule stops by itself before it has read anything. -/
theorem Within.here (raises : Raises limit call cause) : Within limit call cause [] [] :=
  ⟨List.not_mem_nil, .inl ⟨rfl, raises⟩⟩

theorem Within.after (free : .endOfInput ∉ used) (within : Within limit call cause context kinds) :
    Within limit call cause context (used ++ kinds) :=
  ⟨by simp [free, within.1], within.2⟩

/-- A reader that never takes an end mark. -/
def Spares (read : Reader α) : Prop :=
  ∀ used rest a, read (used ++ rest) = .ok (a, rest) → .endOfInput ∉ used.map Token.kind

section Spares

theorem expect_spares (other : kind ≠ .endOfInput) :
    Spares fun tokens => (expect kind tokens).outcome := by
  intro used rest _ read
  rw [(expect_ok read).map_kind]
  simpa using other.symm

theorem level_spares (p : Precedence) :
    Spares fun tokens => (level limit room p tokens).outcome := by
  intro used rest e read
  obtain ⟨phrase, content⟩ := levels_sound _ _ _ _ _ _ read
  rw [content.spelled.map_kind]
  exact (derives_phrase phrase content.fits).no_end

theorem expression_spares : Spares fun tokens => (expression limit room tokens).outcome := by
  intro used rest e read
  obtain ⟨phrase, content⟩ := expression_sound read
  rw [content.spelled.map_kind]
  exact (derives_phrase phrase content.fits).no_end

theorem statement_spares : Spares fun tokens => (statement limit room tokens).outcome := by
  intro used rest s read
  obtain ⟨sentence, content⟩ := statement_sound _ _ _ _ _ read
  rw [content.spelled.map_kind]
  exact (derives_sentence sentence content.fits).no_end

theorem statements_spares (closing : Token.Kind) (found : List Stmt) : Spares fun tokens =>
    (statements limit room closing found tokens (Nat.lt_succ_self _)).outcome := by
  intro used rest body read
  obtain ⟨sentences, fits, _, spelled, _⟩ :=
    statements_sound (statement_sound limit room) _ _ _ _ read
  rw [spelled.map_kind]
  exact (derivesProgram_iff.mpr ⟨sentences, fits, rfl, rfl⟩).no_end

end Spares

namespace Ends

variable {read : Reader α} {tokens : List Token}

/-- A rule fails where a call fails that it has opened. -/
theorem opening (opens : Opens limit call callee) (ends : Ends (FailsIn limit callee) read tokens) :
    Ends (Within limit call) read tokens :=
  ends.mono fun _ _ _ ⟨free, calls, live, context⟩ =>
    ⟨free, .inr ⟨callee, calls, opens, live, context⟩⟩

/-- A rule fails where a token is missing that it needs. -/
theorem expecting (raises : ahead tokens ≠ some kind → Raises limit call (.expected kind)) :
    Ends (Within limit call) (fun tokens => (Grammar.expect kind tokens).outcome) tokens :=
  .expect_unless fun missing => .here (raises missing)

/-- A rule ends with a token, or it fails where that one is missing. -/
theorem closing (a : α) (raises : ahead tokens ≠ some kind → Raises limit call (.expected kind)) :
    Ends (Within limit call) (fun tokens => (Grammar.expect kind tokens).outcome >>= fun closing =>
      .ok (a, closing.2)) tokens :=
  .bind (fun _ rest => .ok (a, rest)) (.expecting raises) fun _ _ _ _ _ => .done a

/-- Behind one token that is not the end mark. -/
theorem behind {token : Token} {after : List Token} (onward : Reader α)
    (same : ∀ (first : Token) (more : List Token), first.kind = token.kind →
      read (first :: more) = onward more)
    (other : token.kind ≠ .endOfInput) (ends : Ends (Within limit call) onward after) :
    Ends (Within limit call) read (token :: after) := by
  have free : .endOfInput ∉ [token.kind] := by simpa using other.symm
  exact .token onward same (ends.mono fun _ _ _ => .after free)

/-- Behind tokens that have been read. -/
theorem onward (next : α → Reader β) (spares : Spares read)
    (first : Ends (Within limit call) read tokens)
    (onward : ∀ a rest, read tokens = .ok (a, rest) → Ends (Within limit call) (next a) rest) :
    Ends (Within limit call) (fun tokens => read tokens >>= fun result => next result.1 result.2)
      tokens :=
  bind next first fun a used rest split taken => (onward a rest taken).mono fun _ _ _ =>
    .after (spares used rest a (split ▸ taken))

/-- A call fails with what comes about within it, its own rule in front. -/
theorem ruled (call : Call) {body : Reader α}
    (completes : call.completes limit = (call.rule.during (body call.tokens)).isOk)
    (ends : Ends (Within limit call) body call.tokens) :
    Ends (FailsIn limit call) (fun tokens => call.rule.during (body tokens)) call.tokens := by
  cases ends with
  | took a used rest split again =>
    exact .took a used rest split fun list next => by rw [again list next, Rule.during_ok]
  | failed cause context used rest split again within =>
    -- The rule fails here, so that the call is one of those that do not complete.
    have stops : call.completes limit = false := by
      rw [completes, split, again rest rfl]
      rfl
    refine .failed cause (call.rule :: context) used rest split (fun list next => ?_)
      ⟨within.1, ?_⟩
    · rw [again list next]
      rfl
    · obtain ⟨rfl, raises⟩ | ⟨callee, calls, opens, live, rfl⟩ := within.2
      · exact ⟨[], .raised raises stops, rfl⟩
      · exact ⟨callee :: calls, .opened opens stops live, rfl⟩

end Ends

section Expression

/-- How the levels of the expression grammar fail within some room. -/
def LevelsFail (limit room : Nat) : Prop :=
  ∀ p tokens, Ends (FailsIn limit ⟨.level p, room, tokens⟩)
    (fun tokens => (level limit room p tokens).outcome) tokens

theorem expression_fails (levels : LevelsFail limit room) (tokens : List Token) :
    Ends (FailsIn limit ⟨.expression, room, tokens⟩)
      (fun tokens => (expression limit room tokens).outcome) tokens := by
  simp only [expression_eq]
  refine .ruled ⟨.expression, room, tokens⟩ ?_ (.opening .loosest (levels _ tokens))
  rw [Call.completes, expression_eq]

theorem primary_fails (smaller : ∀ less < room, LevelsFail limit less) (tokens : List Token) :
    Ends (Within limit ⟨.level .primary, room, tokens⟩)
      (fun tokens => (primary limit room tokens).outcome) tokens := by
  cases tokens with
  | nil =>
    refine .congr _ (fun list same => ?_) (.stop _ (.here (.noExpression (by simp))))
    cases list with
    | nil => rw [primary_nil]
    | cons token more => contradiction
  | cons token after =>
    cases single : atom? token.kind with
    | some atom =>
      refine .token (fun rest => .ok (atom, rest)) (fun first more same => ?_) (.done atom)
      rw [primary_atom (same ▸ single)]
    | none =>
      by_cases opening : token.kind = .leftParen
      · cases room with
        | zero =>
          refine .congr _ (fun list same => ?_)
            (.stop (.nestingLimit limit) (.here (.noGroup opening)))
          obtain ⟨first, more, rfl, kind⟩ := ahead_eq_some_iff.mp same
          rw [primary_group (kind.trans opening)]
        | succ room =>
          refine .behind _ (fun first more same => primary_group (same.trans opening))
            (by simp [opening]) ?_
          refine .onward (fun e rest => (expect .rightParen rest).outcome >>= fun close =>
            .ok (e, close.2)) expression_spares ?_ fun e rest whole => ?_
          · exact .opening (.group opening)
              (expression_fails (smaller room (Nat.lt_succ_self _)) after)
          · exact .closing e (.openGroup opening whole)
      · refine .congr _ (fun list same => ?_)
          (.stop _ (.here (.noExpression (by simp [single, opening]))))
        obtain ⟨first, more, rfl, kind⟩ := ahead_eq_some_iff.mp same
        rw [primary_other (kind ▸ single) (kind ▸ opening)]

theorem folds_fail {whole room : Nat} {p : Precedence} (operators : p ≠ .primary)
    (folding : p ≠ .assignment) (smaller : ∀ less < room, LevelsFail limit less)
    (operand : (level limit whole p.tighter tokens).outcome = .ok (first, between))
    (row : OperatorsRead limit p whole between room rest) (left : Expr) :
    Ends (Within limit ⟨.level p, whole, tokens⟩)
      (fun tokens => (folds limit room p left tokens).outcome) rest := by
  by_cases more : ∃ op, ahead rest = some (.operator op) ∧ op.precedence = p
  · obtain ⟨op, sign, same⟩ := more
    obtain ⟨token, after, rfl, kind⟩ := ahead_eq_some_iff.mp sign
    cases room with
    | zero =>
      refine .congr _ (fun list same' => ?_) (.stop (.nestingLimit limit)
        (.here (.noRight operators folding operand row kind same)))
      obtain ⟨first, more, rfl, kind'⟩ := ahead_eq_some_iff.mp same'
      rw [folds_eq _ _ _ (kind'.trans kind) same]
    | succ room =>
      refine .behind _ (fun first more same' => folds_eq _ _ _ (same'.trans kind) same)
        (by simp [kind]) ?_
      -- The operator has taken a level, and with its right operand it belongs to what is read.
      refine .onward (fun right rest => (folds limit room p (.binary op left right) rest).outcome)
        (level_spares _) ?_ fun right rest taken => ?_
      · exact .opening (.right operators folding operand row kind same)
          (smaller room (Nat.lt_succ_self _) _ after)
      · exact folds_fail operators folding (fun less h => smaller less (Nat.lt_succ_of_lt h))
          operand (.next row kind same taken) _
  · have other : ∀ op, ahead rest = some (.operator op) → op.precedence ≠ p :=
      fun op sign same => more ⟨op, sign, same⟩
    exact .congr _ (fun list same => folds_stops _ (same ▸ other)) (.done left)

theorem assigned_fails (smaller : ∀ less < room, LevelsFail limit less)
    (operand : (level limit room .logicalOr tokens).outcome = .ok (target, rest)) :
    Ends (Within limit ⟨.level .assignment, room, tokens⟩)
      (fun tokens => (assigned limit room target tokens).outcome) rest := by
  by_cases sign : ahead rest = some (.operator .assign)
  · obtain ⟨token, after, rfl, kind⟩ := ahead_eq_some_iff.mp sign
    by_cases named : ∃ name, target = .identifier name
    · obtain ⟨name, rfl⟩ := named
      cases room with
      | zero =>
        refine .congr _ (fun list same => ?_)
          (.stop (.nestingLimit limit) (.here (.noValue operand kind)))
        obtain ⟨first, more, rfl, kind'⟩ := ahead_eq_some_iff.mp same
        rw [assigned_eq _ _ _ (kind'.trans kind)]
      | succ room =>
        refine .behind _ (fun first more same => assigned_eq _ _ _ (same.trans kind))
          (by simp [kind]) ?_
        refine .bind (fun value rest => .ok (Expr.binary .assign (.identifier name) value, rest)) ?_
          fun _ _ _ _ _ => .done _
        exact .opening (.assigned operand kind) (smaller room (Nat.lt_succ_self _) _ after)
    · refine .congr _ (fun list same => ?_)
        (.stop .invalidAssignmentTarget (.here (.noTarget operand kind (not_exists.mp named))))
      obtain ⟨first, more, rfl, kind'⟩ := ahead_eq_some_iff.mp same
      rw [assigned_eq _ _ _ (kind'.trans kind)]
      cases target <;> first | rfl | exact absurd ⟨_, rfl⟩ named
  · exact .congr _ (fun list same => assigned_stops _ (same ▸ sign)) (.done target)

theorem level_fails (smaller : ∀ less < room, LevelsFail limit less) : LevelsFail limit room := by
  intro p
  induction p using Precedence.tightest_first with
  | primary =>
    intro tokens
    simp only [level_primary_eq]
    refine .ruled ⟨.level .primary, room, tokens⟩ ?_ (primary_fails smaller tokens)
    rw [Call.completes, level_primary_eq]
  | looser p operators ih =>
    intro tokens
    simp only [level_eq operators]
    refine .ruled ⟨.level p, room, tokens⟩ (by rw [Call.completes, level_eq operators])
      (.onward (joined limit room p) (level_spares _) ?_ fun first rest operand => ?_)
    · exact .opening (.operand operators) (ih tokens)
    · unfold joined
      split
      · rename_i assignment
        subst assignment
        exact assigned_fails smaller operand
      · rename_i folding
        exact folds_fail operators folding smaller operand .none first

theorem levels_fail (limit room : Nat) : LevelsFail limit room := by
  induction room using Nat.strongRecOn with
  | ind room ih => exact level_fails ih

end Expression

section Statement

/-- How the statement rule fails within some room. -/
def StatementsFail (limit room : Nat) : Prop :=
  ∀ tokens, Ends (FailsIn limit ⟨.statement, room, tokens⟩)
    (fun tokens => (statement limit room tokens).outcome) tokens

theorem expressionStatement_fails (limit room : Nat) (tokens : List Token) :
    Ends (FailsIn limit ⟨.expressionStatement, room, tokens⟩)
      (fun tokens => (expressionStatement limit room tokens).outcome) tokens := by
  simp only [expressionStatement_eq]
  refine .ruled ⟨.expressionStatement, room, tokens⟩
    (by rw [Call.completes, expressionStatement_eq])
    (.onward (fun e rest => (expect .semicolon rest).outcome >>= fun semicolon =>
      .ok (Stmt.expression e, semicolon.2)) expression_spares ?_ fun e rest whole => ?_)
  · exact .opening .value (expression_fails (levels_fail limit room) tokens)
  · exact .closing _ (.openValue whole)

theorem expect_cons (read : (expect kind tokens).outcome = .ok ((), rest)) :
    ∃ token, tokens = token :: rest ∧ token.kind = kind := by
  simpa [and_comm] using expect_ok read

theorem alternative_fails (inner : StatementsFail limit room) (opening : left.kind = .leftParen)
    (closing : right.kind = .rightParen)
    (condition : (expression limit room after).outcome = .ok (e, right :: between))
    (taken : (statement limit room between).outcome = .ok (branch, rest)) :
    Ends (Within limit ⟨.ifStatement, room, left :: after⟩)
      (alternative limit room e branch) rest := by
  by_cases follows : ahead rest = some .elseKeyword
  · obtain ⟨keyword, rest, rfl, kind⟩ := ahead_eq_some_iff.mp follows
    refine .behind (fun rest => (statement limit room rest).outcome >>= fun otherwise =>
      .ok (.ifThenElse e branch otherwise.1, otherwise.2)) ?_ (by simp [kind]) ?_
    · intro first more same
      exact if_pos (congrArg some (same.trans kind))
    · refine .bind (fun other rest => .ok (Stmt.ifThenElse e branch other, rest)) ?_
        fun _ _ _ _ _ => .done _
      exact .opening (.otherwise opening closing condition taken kind) (inner rest)
  · exact .congr _ (fun list same => if_neg (same ▸ follows)) (.done _)

theorem branches_fail (inner : StatementsFail limit room) (opening : left.kind = .leftParen)
    (condition : (expression limit room after).outcome = .ok (e, rest)) :
    Ends (Within limit ⟨.ifStatement, room, left :: after⟩) (branches limit room e) rest := by
  refine .onward (fun _ rest => (statement limit room rest).outcome >>= fun branch =>
    alternative limit room e branch.1 branch.2) (expect_spares (by simp)) ?_
    fun _ rest closed => ?_
  · exact .expecting (.openCondition opening condition)
  obtain ⟨right, rfl, closing⟩ := expect_cons closed
  refine .onward (alternative limit room e) statement_spares ?_ fun branch rest taken => ?_
  · exact .opening (.branch opening closing condition) (inner rest)
  · exact alternative_fails inner opening closing condition taken

theorem ifStatement_fails (inner : StatementsFail limit room) (tokens : List Token) :
    Ends (FailsIn limit ⟨.ifStatement, room, tokens⟩)
      (fun tokens => (ifStatement limit room tokens).outcome) tokens := by
  simp only [ifStatement_eq]
  refine .ruled ⟨.ifStatement, room, tokens⟩ (by rw [Call.completes, ifStatement_eq])
    (.onward (fun _ rest => (expression limit room rest).outcome >>= fun condition =>
      branches limit room condition.1 condition.2) (expect_spares (by simp)) ?_
      fun _ rest opened => ?_)
  · exact .expecting .noCondition
  obtain ⟨left, rfl, opening⟩ := expect_cons opened
  refine .onward (branches limit room) expression_spares ?_ fun e rest condition => ?_
  · exact .opening (.condition opening) (expression_fails (levels_fail limit room) rest)
  · exact branches_fail inner opening condition

/-- A row of statements that is read stands up to where it closes. -/
theorem statements_read {closing : Token.Kind}
    (row : StatementsRead limit room closing start tokens)
    (read : (statements limit room closing found tokens (Nat.lt_succ_self _)).outcome =
      .ok (body, rest)) : StatementsRead limit room closing start rest ∧ atClose closing rest := by
  induction h : tokens.length using Nat.strongRecOn generalizing tokens found with
  | ind n ih =>
    subst h
    by_cases close : atClose closing tokens
    · rw [statements_close _ _ _ close] at read
      cases read
      exact ⟨row, close⟩
    · rw [statements_eq _ _ _ close] at read
      obtain ⟨⟨next, between⟩, first, read⟩ := bind_eq_ok_iff.mp read
      exact ih _ (outcome_within first) (.next row close first) read rfl

/-- Statements in a row, up to where they close. -/
theorem statements_fail (inner : StatementsFail limit room) {closing : Token.Kind}
    (opens : ∀ rest, StatementsRead limit room closing tokens rest → ¬ atClose closing rest →
      Opens limit call ⟨.statement, room, rest⟩)
    (row : StatementsRead limit room closing tokens rest) (found : List Stmt) :
    Ends (Within limit call) (fun tokens =>
      (statements limit room closing found tokens (Nat.lt_succ_self _)).outcome) rest := by
  -- By induction on the tokens that are left, while the row in front of them grows.
  induction h : rest.length using Nat.strongRecOn generalizing rest found with
  | ind n ih =>
    subst h
    by_cases close : atClose closing rest
    · refine .congr _ (fun list same => statements_close _ _ _ ?_) (.done found.reverse)
      rwa [atClose, same]
    · refine .congr (fun tokens => (statement limit room tokens).outcome >>= fun next =>
        (statements limit room closing (next.1 :: found) next.2 (Nat.lt_succ_self _)).outcome)
        (fun list same => statements_eq _ _ _ ?_) ?_
      · rwa [atClose, same]
      · refine .onward (fun next rest => (statements limit room closing (next :: found) rest
          (Nat.lt_succ_self _)).outcome) statement_spares ?_ fun next rest first => ?_
        · exact .opening (opens _ row close) (inner _)
        · exact ih _ (outcome_within first) (.next row close first) _ rfl

theorem block_fails (inner : StatementsFail limit room) (tokens : List Token) :
    Ends (FailsIn limit ⟨.block, room, tokens⟩)
      (fun tokens => (block limit room tokens).outcome) tokens := by
  simp only [block_eq]
  refine .ruled ⟨.block, room, tokens⟩ (by rw [Call.completes, block_eq])
    (.onward (fun body rest => (expect .rightBrace rest).outcome >>= fun closing =>
      .ok (Stmt.block body, closing.2)) (statements_spares _ _) ?_ fun body rest whole => ?_)
  · exact statements_fail inner (fun _ => .enclosed) .none []
  · obtain ⟨row, close⟩ := statements_read .none whole
    exact .closing _ (.openBlock row close)

theorem statement_fails (limit room : Nat) : StatementsFail limit room := by
  induction room with
  | zero =>
    intro tokens
    simp only [statement_zero]
    exact .ruled ⟨.statement, 0, tokens⟩ (by rw [Call.completes, statement_zero])
      (.stop _ (.here .noStatement))
  | succ room ih =>
    intro tokens
    simp only [statement_succ]
    refine .ruled ⟨.statement, room + 1, tokens⟩
      (by rw [Call.completes, statement_succ]) ?_
    by_cases brace : ahead tokens = some .leftBrace
    · obtain ⟨token, after, rfl, kind⟩ := ahead_eq_some_iff.mp brace
      refine .behind (fun rest => (block limit room rest).outcome) ?_ (by simp [kind]) ?_
      · intro first more same
        exact if_pos (congrArg some (same.trans kind))
      · exact .opening (.block kind) (block_fails ih after)
    by_cases keyword : ahead tokens = some .ifKeyword
    · obtain ⟨token, after, rfl, kind⟩ := ahead_eq_some_iff.mp keyword
      refine .behind (fun rest => (ifStatement limit room rest).outcome) ?_ (by simp [kind]) ?_
      · intro first more same
        simp [same, kind]
      · exact .opening (.conditional kind) (ifStatement_fails ih after)
    · refine .congr _ (fun list same => ?_)
        (.opening (.plain brace keyword) (expressionStatement_fails limit room tokens))
      rw [same, if_neg brace, if_neg keyword]

end Statement

section Entry

theorem isOk_map (f : α → β) (x : Except ε α) : (x.map f).isOk = x.isOk := by
  cases x <;> rfl

/-- The statements of a program. -/
theorem topLevel_fails (limit : Nat) (tokens : List Token) :
    Ends (Within limit ⟨.program, limit, tokens⟩) (fun tokens =>
      (statements limit limit .endOfInput [] tokens (Nat.lt_succ_self _)).outcome) tokens :=
  statements_fail (statement_fails limit limit) (fun _ => .topLevel) .none []

theorem program_fails (limit : Nat) (tokens : List Token) :
    Ends (FailsIn limit ⟨.program, limit, tokens⟩) (programReader limit) tokens := by
  refine .ruled ⟨.program, limit, tokens⟩ ?_
    (.onward (fun body rest => (expect .endOfInput rest).outcome >>= fun ending =>
      .ok (Stmt.block body, ending.2)) (statements_spares _ _) ?_ fun body rest whole => ?_)
  · rw [Call.completes, program_eq_reader, isOk_map, programReader]
  · exact topLevel_fails limit tokens
  · obtain ⟨row, close⟩ := statements_read .none whole
    exact .closing _ (.openProgram row close)

/-- A single expression with the tokens that it leaves. -/
def expressionReader (limit : Nat) : Reader Expr := fun tokens =>
  Rule.singleExpression.during ((expression limit limit tokens).outcome >>= fun value =>
    (expect .endOfInput value.2).outcome >>= fun ending => .ok (value.1, ending.2))

theorem singleExpression_eq_reader (limit : Nat) (tokens : List Token) :
    singleExpression limit tokens = (expressionReader limit tokens).map Prod.fst := by
  rw [singleExpression_eq, expressionReader]
  cases (expression limit limit tokens).outcome with
  | error e => rfl
  | ok value =>
    simp only [bind_ok]
    cases (expect .endOfInput value.2).outcome <;> rfl

theorem singleExpression_fails (limit : Nat) (tokens : List Token) :
    Ends (FailsIn limit ⟨.singleExpression, limit, tokens⟩) (expressionReader limit) tokens := by
  refine .ruled ⟨.singleExpression, limit, tokens⟩ ?_
    (.onward (fun value rest => (expect .endOfInput rest).outcome >>= fun ending =>
      .ok (value, ending.2)) expression_spares ?_ fun value rest whole => ?_)
  · rw [Call.completes, singleExpression_eq_reader, isOk_map, expressionReader]
  · exact .opening .whole (expression_fails (levels_fail limit limit) tokens)
  · exact .closing _ (.openWhole whole)

/-- The context of a syntax error is the path of the rules that are open, from an entry to the one
that stops. -/
structure OpenRules (limit : Nat) (entry : Rule) (tokens : List Token) (e : SyntaxError) :
    Prop where
  starts : e.context.head? = some entry
  path : e.context.IsChain fun outer inner => inner ∈ outer.calls
  raised : ∃ rule, e.context.getLast? = some rule ∧ rule ∈ e.cause.raisers
  ending : e.cause = .expected .endOfInput → e.context.getLast? = some entry
  live : ∃ calls : List Call, calls.map Call.rule = e.context ∧
    calls.head? = some ⟨entry, limit, tokens⟩ ∧ calls.IsChain (Opens limit) ∧
    (∀ call ∈ calls, call.completes limit = false) ∧
    ∃ call, calls.getLast? = some call ∧ Raises limit call e.cause

theorem Live.openRules {e : SyntaxError}
    (live : Live limit e.cause (⟨entry, limit, tokens⟩ :: calls))
    (context : e.context = (⟨entry, limit, tokens⟩ :: calls).map Call.rule) :
    OpenRules limit entry tokens e where
  starts := by rw [context]; rfl
  path := by
    rw [context]
    exact List.isChain_map_of_isChain _ (fun _ _ => Opens.calls) live.chain
  raised := by
    obtain ⟨call, last, raises⟩ := live.last
    exact ⟨call.rule, by rw [context, List.getLast?_map, last]; rfl, raises.raiser⟩
  ending := by
    intro missing
    rw [missing] at live
    rw [context, live.alone]
    rfl
  live := ⟨_, context.symm, rfl, live.chain, live.incomplete, live.last⟩

theorem Ends.openRules {read : Reader α}
    (ends : Ends (FailsIn limit ⟨entry, limit, tokens⟩) read tokens)
    (failed : (read tokens).map Prod.fst = .error e) : OpenRules limit entry tokens e := by
  cases ends with
  | took a used rest split again =>
    rw [split, again rest rfl] at failed
    contradiction
  | failed cause context used rest split again blamed =>
    obtain ⟨_, calls, live, path⟩ := blamed
    rw [split, again rest rfl] at failed
    cases failed
    exact live.openRules path

/-- A syntax error stands at the end of a path of open rules: its context begins with the entry,
goes on from each rule to one that it calls, names no rule that has been completed, and ends with
one that can stop for the cause. -/
theorem context_is_open_path (limit : Nat) (tokens : List Token) :
    (∀ e, program limit tokens = .error e → OpenRules limit .program tokens e) ∧
      ∀ e, singleExpression limit tokens = .error e →
        OpenRules limit .singleExpression tokens e := by
  constructor
  · intro e failed
    rw [program_eq_reader] at failed
    exact (program_fails limit tokens).openRules failed
  · intro e failed
    rw [singleExpression_eq_reader] at failed
    exact (singleExpression_fails limit tokens).openRules failed

/-- The tokens of `{ {} if ((a) + b; }`. -/
def openCondition : List Token := unplaced [.leftBrace, .leftBrace, .rightBrace, .ifKeyword,
  .leftParen, .leftParen, .identifier "a", .rightParen, .operator .plus, .identifier "b",
  .semicolon, .rightBrace, .endOfInput]

/-- The error about a condition that is not closed. The block, the group and the sum before it have
been completed. -/
def conditionOpen : SyntaxError where
  cause := .expected .rightParen
  context := [.program, .statement, .block, .statement, .ifStatement]
  found := (unplaced [.semicolon]).head?

/-- The tokens of `(a) * (b`. -/
def openFactor : List Token := unplaced [.leftParen, .identifier "a", .rightParen,
  .operator .times, .leftParen, .identifier "b", .endOfInput]

/-- The error about a group that is not closed, behind one that has been completed. -/
def factorOpen : SyntaxError where
  cause := .expected .rightParen
  context := [.singleExpression, .expression, .level .assignment, .level .logicalOr,
    .level .logicalAnd, .level .equality, .level .relational, .level .additive,
    .level .multiplicative, .level .primary]
  found := (unplaced [.endOfInput]).head?

theorem openCondition_open : program 9 openCondition = .error conditionOpen ∧
    OpenRules 9 .program openCondition conditionOpen ∧
    singleExpression 9 openFactor = .error factorOpen ∧
    OpenRules 9 .singleExpression openFactor factorOpen := by
  have condition : program 9 openCondition = .error conditionOpen := by cbv
  have factor : singleExpression 9 openFactor = .error factorOpen := by cbv
  exact ⟨condition, (context_is_open_path 9 _).1 _ condition, factor,
    (context_is_open_path 9 _).2 _ factor⟩

end Entry

end Grammar
end Scriptlet
