import Scriptlet.Proofs.Grammar.Derivation
import Scriptlet.Proofs.Grammar.Limit
import Scriptlet.Proofs.Grammar.Lookahead

/-! The first bad token. Whatever the rules have read when one of them fails can be completed: the
calls that are under way say with what. And since the rules look one token ahead, no program goes
on with the token that the error names. -/
namespace Scriptlet
namespace Grammar

variable {limit room : Nat}

/-- An error that is not about nesting stands behind tokens that can be completed. -/
def Unfinished (begins : List Token.Kind → Prop) (cause : SyntaxError.Cause) (_ : List Rule)
    (kinds : List Token.Kind) : Prop :=
  (∀ limit, cause ≠ .nestingLimit limit) → begins kinds

theorem Ends.weaken {begins begins' : List Token.Kind → Prop} {read : Reader α}
    (weaker : ∀ kinds, begins kinds → begins' kinds)
    (ends : Ends (Unfinished begins) read tokens) : Ends (Unfinished begins') read tokens :=
  ends.mono fun _ _ kinds unfinished proper => weaker kinds (unfinished proper)

theorem Ends.noRoom {begins : List Token.Kind → Prop} (limit : Nat) :
    Ends (Unfinished begins) (Grammar.stop (.nestingLimit limit) : Reader α) tokens :=
  .stop _ fun proper => absurd rfl (proper limit)

section Expression

/-- These kinds begin a phrase that binds at least as tightly as `p`. -/
def PhraseBegins (p : Precedence) (kinds : List Token.Kind) : Prop :=
  ∃ (phrase : Phrase) (more : List Token.Kind), phrase.Fits ∧
    p.level ≤ phrase.precedence.level ∧ phrase.kinds = kinds ++ more

namespace PhraseBegins

theorem nil (p : Precedence) : PhraseBegins p [] :=
  ⟨.identifier "a", [.identifier "a"], trivial, Precedence.level_le_primary p, rfl⟩

theorem whole {phrase : Phrase} (fits : phrase.Fits) (binds : p.level ≤ phrase.precedence.level) :
    PhraseBegins p phrase.kinds := ⟨phrase, [], fits, binds, (List.append_nil _).symm⟩

theorem looser (begins : PhraseBegins q kinds) (looser : p.level ≤ q.level) :
    PhraseBegins p kinds := by
  obtain ⟨phrase, more, fits, binds, same⟩ := begins
  exact ⟨phrase, more, fits, Nat.le_trans looser binds, same⟩

theorem group (begins : PhraseBegins .assignment kinds) :
    PhraseBegins .primary (.leftParen :: kinds) := by
  obtain ⟨phrase, more, fits, _, same⟩ := begins
  exact ⟨.group phrase, more ++ [.rightParen], fits, Nat.le_refl _, by simp [Phrase.kinds, same]⟩

theorem assign {target : Phrase} (fits : target.Fits) (named : target.tree = .identifier name)
    (begins : PhraseBegins .assignment kinds) :
    PhraseBegins .assignment (target.kinds ++ .operator .assign :: kinds) := by
  obtain ⟨value, more, valueFits, _, same⟩ := begins
  refine ⟨.binary .assign target value, more, ⟨fits, valueFits, ?_⟩, Nat.zero_le _, ?_⟩
  · rw [if_pos rfl]
    exact ⟨name, named⟩
  · simp [Phrase.kinds, same]

theorem fold {left : Phrase} (folding : op ≠ .assign) (fits : left.Fits)
    (binds : op.precedence.level ≤ left.precedence.level)
    (begins : PhraseBegins op.precedence.tighter kinds) :
    PhraseBegins op.precedence (left.kinds ++ .operator op :: kinds) := by
  obtain ⟨right, more, rightFits, tighter, same⟩ := begins
  rw [Precedence.level_tighter op.precedence_ne_primary] at tighter
  refine ⟨.binary op left right, more, ⟨fits, rightFits, ?_⟩, Nat.le_refl _, ?_⟩
  · rw [if_neg folding]
    exact ⟨binds, tighter⟩
  · simp [Phrase.kinds, same]

end PhraseBegins

/-- How the levels of the expression grammar end within some room. -/
def LevelsEnd (limit room : Nat) : Prop :=
  ∀ p tokens, Ends (Unfinished (PhraseBegins p))
    (fun tokens => (level limit room p tokens).outcome) tokens

theorem expression_ends (levels : LevelsEnd limit room) (tokens : List Token) :
    Ends (Unfinished (PhraseBegins .assignment))
      (fun tokens => (expression limit room tokens).outcome) tokens := by
  simp only [expression_eq]
  exact .during _ (levels _ tokens)

/-- Behind an opening parenthesis. -/
theorem group_ends (levels : LevelsEnd limit room) (after : List Token) :
    Ends (Unfinished fun kinds => PhraseBegins .primary (.leftParen :: kinds))
      (fun tokens => (expression limit room tokens).outcome >>= fun inner =>
        (expect .rightParen inner.2).outcome >>= fun close => .ok (inner.1, close.2)) after := by
  refine .bind (fun e rest => (expect .rightParen rest).outcome >>= fun close =>
    .ok (e, close.2)) ?_ ?_
  · exact (expression_ends levels after).weaken fun _ => .group
  · rintro e used rest rfl whole
    obtain ⟨phrase, content⟩ := expression_sound whole
    refine .close e fun _ => ?_
    rw [content.spelled.map_kind, List.append_nil]
    exact .group (.whole content.fits (Nat.zero_le _))

theorem primary_ends (smaller : ∀ less < room, LevelsEnd limit less) (tokens : List Token) :
    Ends (Unfinished (PhraseBegins .primary))
      (fun tokens => (primary limit room tokens).outcome) tokens := by
  have wrong : Ends (Unfinished (PhraseBegins .primary))
      (stop .expectedExpression : Reader Expr) tokens := .stop _ fun _ => .nil _
  cases tokens with
  | nil =>
    refine .congr _ (fun list same => ?_) wrong
    cases list with
    | nil => rw [primary_nil]
    | cons token more => contradiction
  | cons token after =>
    cases single : atom? token.kind with
    | some atom =>
      refine .token (fun rest => .ok (atom, rest)) (fun first more same => ?_) (.done atom)
      rw [primary_atom (same ▸ single)]
    | none =>
      by_cases opening : token.kind = .leftParen
      · cases room with
        | zero =>
          refine .congr _ (fun list same => ?_) (.noRoom limit)
          obtain ⟨first, more, rfl, kind⟩ := ahead_eq_some_iff.mp same
          rw [primary_group (kind.trans opening)]
        | succ room =>
          refine .token _ (fun first more same => primary_group (same.trans opening)) ?_
          rw [opening]
          exact group_ends (smaller room (Nat.lt_succ_self _)) after
      · refine .congr _ (fun list same => ?_) wrong
        obtain ⟨first, more, rfl, kind⟩ := ahead_eq_some_iff.mp same
        rw [primary_other (kind ▸ single) (kind ▸ opening)]

theorem folds_end {room : Nat} {p : Precedence} (operators : p ≠ .primary)
    (folding : p ≠ .assignment) (smaller : ∀ less < room, LevelsEnd limit less) (left : Phrase)
    (fits : left.Fits) (binds : p.level ≤ left.precedence.level) (tokens : List Token) :
    Ends (Unfinished fun kinds => PhraseBegins p (left.kinds ++ kinds))
      (fun tokens => (folds limit room p left.tree tokens).outcome) tokens := by
  by_cases more : ∃ op, ahead tokens = some (.operator op) ∧ op.precedence = p
  · obtain ⟨op, sign, same⟩ := more
    obtain ⟨token, after, rfl, kind⟩ := ahead_eq_some_iff.mp sign
    have assigns : op ≠ .assign := fun assign =>
      folding (same ▸ Operator.precedence_eq_assignment.mpr assign)
    cases room with
    | zero =>
      refine .congr _ (fun list same' => ?_) (.noRoom limit)
      obtain ⟨first, more, rfl, kind'⟩ := ahead_eq_some_iff.mp same'
      rw [folds_eq _ _ _ (kind'.trans kind) same]
    | succ room =>
      refine .token _ (fun first more same' => folds_eq _ _ _ (same'.trans kind) same) ?_
      subst same
      rw [kind]
      refine .bind (fun right rest =>
        (folds limit room op.precedence (.binary op left.tree right) rest).outcome) ?_ ?_
      · exact (smaller room (Nat.lt_succ_self _) _ after).weaken fun _ => .fold assigns fits binds
      · rintro right used rest rfl operand
        obtain ⟨phrase, content⟩ := levels_sound _ _ _ _ _ _ operand
        obtain rfl := content.tree
        have tighter := content.binds
        rw [Precedence.level_tighter operators] at tighter
        have joined : (Phrase.binary op left phrase).Fits := by
          refine ⟨fits, content.fits, ?_⟩
          rw [if_neg assigns]
          exact ⟨binds, tighter⟩
        have onward := folds_end operators folding
          (fun less h => smaller less (Nat.lt_succ_of_lt h)) (.binary op left phrase) joined
          (Nat.le_refl _) rest
        refine onward.weaken fun kinds begins => ?_
        rw [content.spelled.map_kind]
        simpa [Phrase.kinds] using begins
  · have other : ∀ op, ahead tokens = some (.operator op) → op.precedence ≠ p :=
      fun op sign same => more ⟨op, sign, same⟩
    exact .congr _ (fun list same => folds_stops _ (same ▸ other)) (.done left.tree)

theorem assigned_ends (smaller : ∀ less < room, LevelsEnd limit less) (target : Phrase)
    (fits : target.Fits) (tokens : List Token) :
    Ends (Unfinished fun kinds => PhraseBegins .assignment (target.kinds ++ kinds))
      (fun tokens => (assigned limit room target.tree tokens).outcome) tokens := by
  by_cases sign : ahead tokens = some (.operator .assign)
  · obtain ⟨token, after, rfl, kind⟩ := ahead_eq_some_iff.mp sign
    by_cases named : ∃ name, target.tree = .identifier name
    · obtain ⟨name, named⟩ := named
      cases room with
      | zero =>
        refine .congr _ (fun list same => ?_) (.noRoom limit)
        obtain ⟨first, more, rfl, kind'⟩ := ahead_eq_some_iff.mp same
        rw [named, assigned_eq _ _ _ (kind'.trans kind)]
      | succ room =>
        rw [named]
        refine .token _ (fun first more same => assigned_eq _ _ _ (same.trans kind)) ?_
        rw [kind]
        refine .bind (fun value rest => .ok (Expr.binary .assign (.identifier name) value, rest)) ?_
          fun _ _ _ _ _ => .done _
        exact (smaller room (Nat.lt_succ_self _) _ after).weaken fun _ => .assign fits named
    · refine .congr _ (fun list same => ?_) (.stop .invalidAssignmentTarget fun _ => ?_)
      · obtain ⟨first, more, rfl, kind'⟩ := ahead_eq_some_iff.mp same
        rw [assigned_eq _ _ _ (kind'.trans kind)]
        cases tree : target.tree <;> first | rfl | exact absurd ⟨_, tree⟩ named
      · change PhraseBegins .assignment (target.kinds ++ [])
        rw [List.append_nil]
        exact .whole fits (Nat.zero_le _)
  · exact .congr _ (fun list same => assigned_stops _ (same ▸ sign)) (.done target.tree)

theorem level_ends (smaller : ∀ less < room, LevelsEnd limit less) : LevelsEnd limit room := by
  intro p
  induction p using Precedence.tightest_first with
  | primary =>
    intro tokens
    simp only [level_primary_eq]
    exact .during _ (primary_ends smaller tokens)
  | looser p operators ih =>
    intro tokens
    simp only [level_eq operators]
    have next := Precedence.level_tighter operators
    refine .during _ (.bind (joined limit room p) ?_ ?_)
    · exact (ih tokens).weaken fun _ begins => begins.looser (by omega)
    · rintro first used rest rfl operand
      obtain ⟨phrase, content⟩ := levels_sound _ _ _ _ _ _ operand
      obtain rfl := content.tree
      have tighter := content.binds
      rw [content.spelled.map_kind]
      unfold joined
      split
      · rename_i assignment
        subst assignment
        exact assigned_ends smaller phrase content.fits rest
      · rename_i folding
        exact folds_end operators folding smaller phrase content.fits (by omega) rest

theorem levels_end (limit room : Nat) : LevelsEnd limit room := by
  induction room using Nat.strongRecOn with
  | ind room ih => exact level_ends ih

end Expression

section Statement

/-- These kinds begin a sentence. -/
def SentenceBegins (kinds : List Token.Kind) : Prop :=
  ∃ (s : Sentence) (more : List Token.Kind), s.Fits ∧ s.kinds = kinds ++ more

/-- These kinds begin sentences in a row. -/
def SentencesBegin (kinds : List Token.Kind) : Prop :=
  ∃ (body : List Sentence) (more : List Token.Kind), Sentence.AllFit body ∧
    Sentence.allKinds body = kinds ++ more

namespace SentenceBegins

theorem expression (begins : PhraseBegins .assignment kinds) : SentenceBegins kinds := by
  obtain ⟨phrase, more, fits, _, same⟩ := begins
  exact ⟨.expression phrase, more ++ [.semicolon], fits, by simp [Sentence.kinds, same]⟩

theorem nil : SentenceBegins [] := .expression (.nil _)

/-- What stands before the beginning of a sentence ends is a beginning too. -/
theorem shorter (begins : SentenceBegins (kinds ++ more)) : SentenceBegins kinds := by
  obtain ⟨s, rest, fits, same⟩ := begins
  exact ⟨s, more ++ rest, fits, same.trans (List.append_assoc ..)⟩

theorem branch {condition : Phrase} (fits : condition.Fits) (begins : SentenceBegins kinds) :
    SentenceBegins (.ifKeyword :: .leftParen :: (condition.kinds ++ .rightParen :: kinds)) := by
  obtain ⟨s, more, branchFits, same⟩ := begins
  exact ⟨.ifThen condition s, more, ⟨fits, branchFits⟩, by simp [Sentence.kinds, same]⟩

theorem condition (begins : PhraseBegins .assignment kinds) :
    SentenceBegins (.ifKeyword :: .leftParen :: kinds) := by
  obtain ⟨phrase, more, fits, _, same⟩ := begins
  obtain ⟨s, rest, branchFits, _⟩ := SentenceBegins.nil
  exact ⟨.ifThen phrase s, more ++ .rightParen :: s.kinds, ⟨fits, branchFits⟩,
    by simp [Sentence.kinds, same]⟩

theorem otherwise {condition : Phrase} {branch : Sentence} (fits : condition.Fits)
    (branchFits : branch.Fits) (shut : branch.tree.endsOpen = false)
    (begins : SentenceBegins kinds) :
    SentenceBegins (.ifKeyword :: .leftParen :: (condition.kinds ++ .rightParen ::
      (branch.kinds ++ .elseKeyword :: kinds))) := by
  obtain ⟨s, more, otherFits, same⟩ := begins
  exact ⟨.ifThenElse condition branch s, more, ⟨fits, branchFits, otherFits, shut⟩,
    by simp [Sentence.kinds, same]⟩

theorem block (begins : SentencesBegin kinds) : SentenceBegins (.leftBrace :: kinds) := by
  obtain ⟨body, more, fits, same⟩ := begins
  exact ⟨.block body, more ++ [.rightBrace], fits, by simp [Sentence.kinds, same]⟩

end SentenceBegins

namespace SentencesBegin

theorem first (begins : SentenceBegins kinds) : SentencesBegin kinds := by
  obtain ⟨s, more, fits, same⟩ := begins
  exact ⟨[s], more, ⟨fits, trivial⟩, by simp [Sentence.allKinds, same]⟩

theorem cons {s : Sentence} (fits : s.Fits) (begins : SentencesBegin kinds) :
    SentencesBegin (s.kinds ++ kinds) := by
  obtain ⟨body, more, allFit, same⟩ := begins
  exact ⟨s :: body, more, ⟨fits, allFit⟩, by simp [Sentence.allKinds, same]⟩

end SentencesBegin

/-- How the statement rule ends within some room. -/
def StatementsEnd (limit room : Nat) : Prop :=
  ∀ tokens, Ends (Unfinished SentenceBegins)
    (fun tokens => (statement limit room tokens).outcome) tokens

theorem expressionStatement_ends (limit room : Nat) (tokens : List Token) :
    Ends (Unfinished SentenceBegins)
      (fun tokens => (expressionStatement limit room tokens).outcome) tokens := by
  simp only [expressionStatement_eq]
  refine .during _ (.bind (fun e rest => (expect .semicolon rest).outcome >>= fun semicolon =>
    .ok (Stmt.expression e, semicolon.2)) ?_ ?_)
  · exact (expression_ends (levels_end limit room) tokens).weaken fun _ => .expression
  · rintro e used rest rfl whole
    obtain ⟨phrase, content⟩ := expression_sound whole
    refine .close _ fun _ => ?_
    rw [content.spelled.map_kind, List.append_nil]
    exact .expression (.whole content.fits (Nat.zero_le _))

/-- Behind a first branch another one is read, if there is an `else`. -/
def alternative (limit room : Nat) (condition : Expr) (branch : Stmt) : Reader Stmt := fun tokens =>
  if ahead tokens = some .elseKeyword then
    (statement limit room tokens.tail).outcome >>= fun otherwise =>
      .ok (.ifThenElse condition branch otherwise.1, otherwise.2)
  else .ok (.ifThen condition branch, tokens)

/-- Behind a condition come its closing parenthesis and the branches. -/
def branches (limit room : Nat) (condition : Expr) : Reader Stmt := fun tokens =>
  (expect .rightParen tokens).outcome >>= fun closing =>
    (statement limit room closing.2).outcome >>= fun branch =>
      alternative limit room condition branch.1 branch.2

theorem alternative_ends (inner : StatementsEnd limit room) {condition : Phrase}
    {branch : Sentence} (fits : condition.Fits) (branchFits : branch.Fits) (tokens : List Token)
    (closed : branch.tree.endsOpen = true → ahead tokens ≠ some .elseKeyword) :
    Ends (Unfinished fun kinds => SentenceBegins (.ifKeyword :: .leftParen ::
        (condition.kinds ++ .rightParen :: (branch.kinds ++ kinds))))
      (alternative limit room condition.tree branch.tree) tokens := by
  by_cases follows : ahead tokens = some .elseKeyword
  · obtain ⟨token, after, rfl, kind⟩ := ahead_eq_some_iff.mp follows
    have shut : branch.tree.endsOpen = false :=
      Bool.eq_false_iff.mpr fun ends => closed ends follows
    refine .token (fun rest => (statement limit room rest).outcome >>= fun otherwise =>
      .ok (.ifThenElse condition.tree branch.tree otherwise.1, otherwise.2)) ?_ ?_
    · intro first more same
      exact if_pos (congrArg some (same.trans kind))
    · rw [kind]
      refine .bind (fun other rest =>
        .ok (Stmt.ifThenElse condition.tree branch.tree other, rest)) ?_ fun _ _ _ _ _ => .done _
      exact (inner after).weaken fun _ => .otherwise fits branchFits shut
  · exact .congr _ (fun list same => if_neg (same ▸ follows)) (.done _)

theorem branches_end (inner : StatementsEnd limit room) {condition : Phrase}
    (fits : condition.Fits) (tokens : List Token) :
    Ends (Unfinished fun kinds =>
        SentenceBegins (.ifKeyword :: .leftParen :: (condition.kinds ++ kinds)))
      (branches limit room condition.tree) tokens := by
  refine .bind (fun _ rest => (statement limit room rest).outcome >>= fun branch =>
    alternative limit room condition.tree branch.1 branch.2) ?_ ?_
  · refine .expect fun _ => ?_
    simp only [List.append_nil]
    exact .condition (.whole fits (Nat.zero_le _))
  rintro _ used rest rfl closing
  rw [(expect_ok closing).map_kind]
  refine .bind (alternative limit room condition.tree) ?_ ?_
  · exact (inner rest).weaken fun _ => .branch fits
  · rintro branch used rest rfl taken
    obtain ⟨sentence, content⟩ := statement_sound _ _ _ _ _ taken
    obtain rfl := content.tree
    rw [content.spelled.map_kind]
    exact alternative_ends inner fits content.fits rest content.closed

theorem ifStatement_ends (inner : StatementsEnd limit room) (tokens : List Token) :
    Ends (Unfinished fun kinds => SentenceBegins (.ifKeyword :: kinds))
      (fun tokens => (ifStatement limit room tokens).outcome) tokens := by
  simp only [ifStatement_eq]
  refine .during _ (.bind (fun _ rest => (expression limit room rest).outcome >>= fun condition =>
    branches limit room condition.1 condition.2) ?_ ?_)
  · exact .expect fun _ => .shorter (.condition (.nil _))
  rintro _ used rest rfl opening
  rw [(expect_ok opening).map_kind]
  refine .bind (branches limit room) ?_ ?_
  · exact (expression_ends (levels_end limit room) rest).weaken fun _ => .condition
  · rintro e used rest rfl whole
    obtain ⟨phrase, content⟩ := expression_sound whole
    obtain rfl := content.tree
    rw [content.spelled.map_kind]
    exact branches_end inner content.fits rest

/-- Statements in a row, up to where they close. -/
theorem statements_end (inner : StatementsEnd limit room) (closing : Token.Kind)
    (found : List Stmt) (tokens : List Token) :
    Ends (Unfinished SentencesBegin) (fun tokens =>
      (statements limit room closing found tokens (Nat.lt_succ_self _)).outcome) tokens := by
  induction h : tokens.length using Nat.strongRecOn generalizing tokens found with
  | ind n ih =>
    subst h
    by_cases close : atClose closing tokens
    · refine .congr _ (fun list same => statements_close _ _ _ ?_) (.done found.reverse)
      rwa [atClose, same]
    · refine .congr (fun tokens => (statement limit room tokens).outcome >>= fun next =>
        (statements limit room closing (next.1 :: found) next.2 (Nat.lt_succ_self _)).outcome)
        (fun list same => statements_eq _ _ _ ?_) ?_
      · rwa [atClose, same]
      · refine .bind (fun next rest => (statements limit room closing (next :: found) rest
          (Nat.lt_succ_self _)).outcome) ?_ ?_
        · exact (inner tokens).weaken fun _ => .first
        · rintro next used rest rfl first
          obtain ⟨sentence, content⟩ := statement_sound _ _ _ _ _ first
          rw [content.spelled.map_kind]
          exact (ih _ (outcome_within first) _ _ rfl).weaken fun _ => .cons content.fits

theorem block_ends (inner : StatementsEnd limit room) (tokens : List Token) :
    Ends (Unfinished fun kinds => SentenceBegins (.leftBrace :: kinds))
      (fun tokens => (block limit room tokens).outcome) tokens := by
  simp only [block_eq]
  refine .during _ (.bind (fun body rest => (expect .rightBrace rest).outcome >>= fun closing =>
    .ok (Stmt.block body, closing.2)) ?_ ?_)
  · exact (statements_end inner .rightBrace [] tokens).weaken fun _ => .block
  · rintro body used rest rfl whole
    obtain ⟨sentences, fits, _, spelled, _⟩ := statements_sound (statement_sound limit room) _ _ _ _
      whole
    refine .close _ fun _ => ?_
    rw [spelled.map_kind, List.append_nil]
    exact .block ⟨sentences, [], fits, (List.append_nil _).symm⟩

theorem statement_ends (limit room : Nat) : StatementsEnd limit room := by
  induction room with
  | zero =>
    intro tokens
    simp only [statement_zero]
    exact .during _ (.noRoom limit)
  | succ room ih =>
    intro tokens
    simp only [statement_succ]
    refine .during _ ?_
    by_cases brace : ahead tokens = some .leftBrace
    · obtain ⟨token, after, rfl, kind⟩ := ahead_eq_some_iff.mp brace
      refine .token (fun rest => (block limit room rest).outcome) ?_ ?_
      · intro first more same
        exact if_pos (congrArg some (same.trans kind))
      · rw [kind]
        exact block_ends ih after
    by_cases keyword : ahead tokens = some .ifKeyword
    · obtain ⟨token, after, rfl, kind⟩ := ahead_eq_some_iff.mp keyword
      refine .token (fun rest => (ifStatement limit room rest).outcome) ?_ ?_
      · intro first more same
        simp [same, kind]
      · rw [kind]
        exact ifStatement_ends ih after
    · refine .congr _ (fun list same => ?_) (expressionStatement_ends limit room tokens)
      rw [same, if_neg brace, if_neg keyword]

end Statement

section Program

theorem length_within (tokens : List Token) : tokens.length < tokens.length + 1 :=
  Nat.lt_succ_self _

/-- A program with the tokens that it leaves. -/
def programReader (limit : Nat) : Reader Stmt := fun tokens =>
  Rule.program.during
    ((statements limit limit .endOfInput [] tokens (length_within tokens)).outcome >>= fun body =>
      (expect .endOfInput body.2).outcome >>= fun ending => .ok (.block body.1, ending.2))

theorem program_eq_reader (limit : Nat) (tokens : List Token) :
    program limit tokens = (programReader limit tokens).map Prod.fst := by
  rw [program_eq, programReader]
  cases (statements limit limit .endOfInput [] tokens (Nat.lt_succ_self _)).outcome with
  | error e => rfl
  | ok body =>
    simp only [bind_ok]
    cases (expect .endOfInput body.2).outcome <;> rfl

theorem program_ends (limit : Nat) (tokens : List Token) :
    Ends (Unfinished SentencesBegin) (programReader limit) tokens := by
  refine .during _ (.bind (fun body rest => (expect .endOfInput rest).outcome >>= fun ending =>
    .ok (Stmt.block body, ending.2)) ?_ ?_)
  · exact statements_end (statement_ends limit limit) .endOfInput [] tokens
  · rintro body used rest rfl whole
    obtain ⟨sentences, fits, _, spelled, _⟩ :=
      statements_sound (statement_sound limit limit) _ _ _ _ whole
    refine .close _ fun _ => ?_
    rw [spelled.map_kind, List.append_nil]
    exact ⟨sentences, [], fits, (List.append_nil _).symm⟩

/-- Some tokens behind these make a program that is accepted under some limit. -/
def Extensible (tokens : List Token) : Prop :=
  ∃ more limit root, program limit (tokens ++ more) = .ok root

theorem SentencesBegin.extensible (begins : SentencesBegin (tokens.map Token.kind)) :
    Extensible tokens := by
  obtain ⟨body, more, fits, kinds⟩ := begins
  obtain ⟨written, ending, spelled, sign⟩ := exists_spelled more
  have whole : Spelled (Sentence.allKinds body) (tokens ++ written) [ending] :=
    kinds ▸ Spelled.append ⟨tokens, rfl, rfl⟩ spelled
  exact ⟨written, _, _, program_complete fits whole sign (Nat.le_refl _)⟩

/-- What fails for another reason than nesting is accepted under no limit. -/
theorem not_accepted (failed : program limit tokens = .error e)
    (proper : ∀ limit, e.cause ≠ .nestingLimit limit) (other : Nat) (root : Stmt) :
    program other tokens ≠ .ok root := by
  intro accepted
  rcases program_truncates (Nat.le_max_left limit other) tokens with ⟨_, same, deep⟩ | same
  · rw [failed] at same
    cases same
    exact proper limit deep
  rcases program_truncates (Nat.le_max_right limit other) tokens with ⟨_, same', _⟩ | same'
  · rw [accepted] at same'
    contradiction
  · rw [failed] at same
    rw [accepted, ← same] at same'
    contradiction

/-- A syntax error names the first token that no accepted program has there: what stands before it
can be completed, and what ends with it cannot. An error that names no token stands at the end of
tokens that can be completed. -/
theorem error_at_first_bad_token (failed : program limit tokens = .error e)
    (proper : ∀ limit, e.cause ≠ .nestingLimit limit) :
    (∃ i token, e.found = some token ∧ tokens[i]? = some token ∧ Extensible (tokens.take i) ∧
        ¬ Extensible (tokens.take (i + 1))) ∨
      (e.found = none ∧ Extensible tokens) := by
  cases program_ends limit tokens with
  | took root used rest split again =>
    rw [program_eq_reader, split, again rest rfl] at failed
    contradiction
  | failed cause context used rest split again blamed =>
    have fails (other : List Token) (same : ahead other = ahead rest) :
        program limit (used ++ other) = .error ⟨cause, context, other.head?⟩ := by
      rw [program_eq_reader, again other same]
      rfl
    rw [split, fails rest rfl] at failed
    cases failed
    have extensible := (blamed proper).extensible
    cases rest with
    | nil => exact .inr ⟨rfl, by rwa [split, List.append_nil]⟩
    | cons token after =>
      refine .inl ⟨used.length, token, rfl, by simp [split], by simpa [split] using extensible, ?_⟩
      rintro ⟨more, other, root, accepted⟩
      have start : tokens.take (used.length + 1) ++ more = used ++ token :: more := by
        rw [split, List.take_length_add_append, List.append_assoc]
        rfl
      rw [start] at accepted
      exact not_accepted (fails (token :: more) rfl) proper other root accepted

/-- The tokens of `{ a + b = c; }`. -/
def assignedSum : List Token := unplaced [.leftBrace, .identifier "a", .operator .plus,
  .identifier "b", .operator .assign, .identifier "c", .semicolon, .rightBrace, .endOfInput]

/-- The error about a target that is no name. -/
def sumNoTarget : SyntaxError where
  cause := .invalidAssignmentTarget
  context := [.program, .statement, .block, .statement, .expressionStatement, .expression,
    .level .assignment]
  found := (unplaced [.operator .assign]).head?

/-- The assignment sign is the first bad token, although the sum before it is no target. -/
theorem assignedSum_refused : program 9 assignedSum = .error sumNoTarget ∧
    (∀ limit, sumNoTarget.cause ≠ .nestingLimit limit) ∧
    ((∃ i token, sumNoTarget.found = some token ∧ assignedSum[i]? = some token ∧
        Extensible (assignedSum.take i) ∧ ¬ Extensible (assignedSum.take (i + 1))) ∨
      (sumNoTarget.found = none ∧ Extensible assignedSum)) := by
  have failed : program 9 assignedSum = .error sumNoTarget := by cbv
  have proper : ∀ limit, sumNoTarget.cause ≠ .nestingLimit limit := by simp [sumNoTarget]
  exact ⟨failed, proper, error_at_first_bad_token failed proper⟩

end Program

end Grammar
end Scriptlet
