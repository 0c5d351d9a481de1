import Scriptlet.Proofs.Grammar.Completeness

/-! The grammar as derivation rules, and the parser against it: a list of tokens is accepted under
some limit exactly if what stands before its first end mark derives from the grammar, and the tree
is the one that the derivation builds. -/
namespace Scriptlet
namespace Grammar

/-- A stretch of tokens derives an expression at a binding strength. Every strength has the tighter
ones as its operands, chains nest to the left, assignments nest to the right and need a name on
their left, and parentheses leave no node. -/
inductive Derives : Precedence → List Token.Kind → Expr → Prop where
  | number : Derives .primary [.number value] (.number value)
  | string : Derives .primary [.string value] (.string value)
  | boolean : Derives .primary [.boolean value] (.boolean value)
  | identifier : Derives .primary [.identifier name] (.identifier name)
  | group (inner : Derives .assignment kinds e) :
      Derives .primary (.leftParen :: (kinds ++ [.rightParen])) e
  | operand (operators : p ≠ .primary) (tighter : Derives p.tighter kinds e) : Derives p kinds e
  | assign (target : Derives .logicalOr first (.identifier name))
      (value : Derives .assignment second e) :
      Derives .assignment (first ++ .operator .assign :: second)
        (.binary .assign (.identifier name) e)
  | fold (folding : op ≠ .assign) (left : Derives op.precedence first l)
      (right : Derives op.precedence.tighter second r) :
      Derives op.precedence (first ++ .operator op :: second) (.binary op l r)

/-- A stretch of tokens derives a statement. An `else` belongs to the nearest conditional that can
still take one, so the branch before an `else` must not end in a conditional without one. -/
inductive DerivesStatement : List Token.Kind → Stmt → Prop where
  | expression (value : Derives .assignment kinds e) :
      DerivesStatement (kinds ++ [.semicolon]) (.expression e)
  | ifThen (condition : Derives .assignment first c) (branch : DerivesStatement second s) :
      DerivesStatement (.ifKeyword :: .leftParen :: (first ++ .rightParen :: second)) (.ifThen c s)
  | ifThenElse (condition : Derives .assignment first c) (branch : DerivesStatement second s)
      (otherwise : DerivesStatement third t) (nearest : s.endsOpen = false) :
      DerivesStatement (.ifKeyword :: .leftParen :: (first ++ .rightParen ::
        (second ++ .elseKeyword :: third))) (.ifThenElse c s t)
  | block (parts : List (List Token.Kind × Stmt))
      (statements : ∀ part ∈ parts, DerivesStatement part.1 part.2) :
      DerivesStatement (.leftBrace :: ((parts.map Prod.fst).flatten ++ [.rightBrace]))
        (.block (parts.map Prod.snd))

/-- A stretch of tokens derives a program: one statement after the other, without braces. -/
def DerivesProgram (kinds : List Token.Kind) (root : Stmt) : Prop :=
  ∃ parts : List (List Token.Kind × Stmt), (∀ part ∈ parts, DerivesStatement part.1 part.2) ∧
    kinds = (parts.map Prod.fst).flatten ∧ root = .block (parts.map Prod.snd)

theorem Derives.looser {p q : Precedence} (looser : p.level ≤ q.level)
    (derives : Derives q kinds e) : Derives p kinds e := by
  induction p using Precedence.tightest_first with
  | primary =>
    have same : q = .primary := by cases q <;> first | rfl | contradiction
    exact same ▸ derives
  | looser p operators ih =>
    by_cases same : p.level = q.level
    · exact Precedence.level_injective same ▸ derives
    · have next := Precedence.level_tighter operators
      exact .operand operators (ih (by omega))

theorem Derives.phrase (derives : Derives p kinds e) :
    ∃ phrase : Phrase, phrase.Fits ∧ p.level ≤ phrase.precedence.level ∧ phrase.kinds = kinds ∧
      phrase.tree = e := by
  induction derives with
  | @number value => exact ⟨.number value, trivial, Nat.le_refl _, rfl, rfl⟩
  | @string value => exact ⟨.string value, trivial, Nat.le_refl _, rfl, rfl⟩
  | @boolean value => exact ⟨.boolean value, trivial, Nat.le_refl _, rfl, rfl⟩
  | @identifier name => exact ⟨.identifier name, trivial, Nat.le_refl _, rfl, rfl⟩
  | group _ ih =>
    obtain ⟨phrase, fits, _, rfl, rfl⟩ := ih
    exact ⟨.group phrase, fits, Nat.le_refl _, rfl, rfl⟩
  | operand operators _ ih =>
    obtain ⟨phrase, fits, binds, rfl, rfl⟩ := ih
    rw [Precedence.level_tighter operators] at binds
    exact ⟨phrase, fits, Nat.le_of_succ_le binds, rfl, rfl⟩
  | @assign _ name _ _ _ _ targetIh valueIh =>
    obtain ⟨left, leftFits, _, rfl, named⟩ := targetIh
    obtain ⟨right, rightFits, _, rfl, rfl⟩ := valueIh
    refine ⟨.binary .assign left right, ⟨leftFits, rightFits, ?_⟩, Nat.le_refl _, rfl, ?_⟩
    · rw [if_pos rfl]
      exact ⟨name, named⟩
    · rw [Phrase.tree, named]
  | @fold op _ _ _ _ folding _ _ leftIh rightIh =>
    obtain ⟨left, leftFits, leftBinds, rfl, rfl⟩ := leftIh
    obtain ⟨right, rightFits, rightBinds, rfl, rfl⟩ := rightIh
    rw [Precedence.level_tighter op.precedence_ne_primary] at rightBinds
    refine ⟨.binary op left right, ⟨leftFits, rightFits, ?_⟩, Nat.le_refl _, rfl, rfl⟩
    rw [if_neg folding]
    exact ⟨leftBinds, rightBinds⟩

theorem derives_phrase (phrase : Phrase) (fits : phrase.Fits) :
    Derives phrase.precedence phrase.kinds phrase.tree := by
  induction phrase with
  | number value => exact .number
  | string value => exact .string
  | boolean value => exact .boolean
  | identifier name => exact .identifier
  | group inner ih => exact .group ((ih fits).looser (Nat.zero_le _))
  | binary op left right leftIh rightIh =>
    obtain ⟨leftFits, rightFits, operands⟩ := fits
    have leftDerives := leftIh leftFits
    have rightDerives := rightIh rightFits
    split at operands
    · rename_i assign
      subst assign
      obtain ⟨name, named⟩ := operands
      rw [left.precedence_of_tree_identifier named, named] at leftDerives
      rw [Phrase.tree, named]
      exact .assign (leftDerives.looser (by decide)) (rightDerives.looser (Nat.zero_le _))
    · rename_i folding
      refine .fold folding (leftDerives.looser operands.1) (rightDerives.looser ?_)
      rw [Precedence.level_tighter op.precedence_ne_primary]
      exact operands.2

/-- The sentences of derived statements, in a row. -/
theorem sentences_of_parts (parts : List (List Token.Kind × Stmt))
    (each : ∀ part ∈ parts, ∃ sentence : Sentence,
      sentence.Fits ∧ sentence.kinds = part.1 ∧ sentence.tree = part.2) :
    ∃ body, Sentence.AllFit body ∧ Sentence.allKinds body = (parts.map Prod.fst).flatten ∧
      Sentence.trees body = parts.map Prod.snd := by
  induction parts with
  | nil => exact ⟨[], trivial, rfl, rfl⟩
  | cons part parts ih =>
    obtain ⟨sentence, fits, kinds, tree⟩ := each part List.mem_cons_self
    obtain ⟨body, allFit, allKinds, trees⟩ :=
      ih fun other among => each other (List.mem_cons_of_mem _ among)
    refine ⟨sentence :: body, ⟨fits, allFit⟩, ?_, ?_⟩
    · rw [Sentence.allKinds, kinds, allKinds, List.map_cons, List.flatten_cons]
    · rw [Sentence.trees, tree, trees, List.map_cons]

theorem DerivesStatement.sentence (derives : DerivesStatement kinds s) :
    ∃ sentence : Sentence, sentence.Fits ∧ sentence.kinds = kinds ∧ sentence.tree = s := by
  induction derives with
  | expression value =>
    obtain ⟨phrase, fits, _, rfl, rfl⟩ := value.phrase
    exact ⟨.expression phrase, fits, rfl, rfl⟩
  | ifThen condition _ ih =>
    obtain ⟨test, testFits, _, rfl, rfl⟩ := condition.phrase
    obtain ⟨branch, fits, rfl, rfl⟩ := ih
    exact ⟨.ifThen test branch, ⟨testFits, fits⟩, rfl, rfl⟩
  | ifThenElse condition _ _ nearest branchIh otherIh =>
    obtain ⟨test, testFits, _, rfl, rfl⟩ := condition.phrase
    obtain ⟨branch, fits, rfl, rfl⟩ := branchIh
    obtain ⟨otherwise, otherFits, rfl, rfl⟩ := otherIh
    exact ⟨.ifThenElse test branch otherwise, ⟨testFits, fits, otherFits, nearest⟩, rfl, rfl⟩
  | block parts _ ih =>
    obtain ⟨body, fits, kinds, trees⟩ := sentences_of_parts parts ih
    exact ⟨.block body, fits, by rw [Sentence.kinds, kinds], by rw [Sentence.tree, trees]⟩

mutual

theorem derives_sentence (s : Sentence) (fits : s.Fits) : DerivesStatement s.kinds s.tree :=
  match s with
  | .ifThen condition branch =>
    .ifThen ((derives_phrase condition fits.1).looser (Nat.zero_le _))
      (derives_sentence branch fits.2)
  | .ifThenElse condition branch otherwise =>
    .ifThenElse ((derives_phrase condition fits.1).looser (Nat.zero_le _))
      (derives_sentence branch fits.2.1) (derives_sentence otherwise fits.2.2.1) fits.2.2.2
  | .expression value => .expression ((derives_phrase value fits).looser (Nat.zero_le _))
  | .block body => by
    obtain ⟨parts, each, kinds, trees⟩ := derives_sentences body fits
    rw [Sentence.kinds, Sentence.tree, kinds, trees]
    exact .block parts each

theorem derives_sentences (body : List Sentence) (fits : Sentence.AllFit body) :
    ∃ parts : List (List Token.Kind × Stmt), (∀ part ∈ parts, DerivesStatement part.1 part.2) ∧
      Sentence.allKinds body = (parts.map Prod.fst).flatten ∧
      Sentence.trees body = parts.map Prod.snd :=
  match body with
  | [] => ⟨[], by simp, rfl, rfl⟩
  | s :: more => by
    obtain ⟨parts, each, kinds, trees⟩ := derives_sentences more fits.2
    refine ⟨(s.kinds, s.tree) :: parts, ?_, ?_, ?_⟩
    · exact List.forall_mem_cons.mpr ⟨derives_sentence s fits.1, each⟩
    · rw [Sentence.allKinds, kinds]
      rfl
    · rw [Sentence.trees, trees]
      rfl

end

theorem derivesProgram_iff : DerivesProgram kinds root ↔
    ∃ body, Sentence.AllFit body ∧ Sentence.allKinds body = kinds ∧
      root = .block (Sentence.trees body) := by
  constructor
  · rintro ⟨parts, each, rfl, rfl⟩
    obtain ⟨body, fits, kinds, trees⟩ :=
      sentences_of_parts parts fun part h => (each part h).sentence
    exact ⟨body, fits, kinds, congrArg _ trees.symm⟩
  · rintro ⟨body, fits, rfl, rfl⟩
    obtain ⟨parts, each, kinds, trees⟩ := derives_sentences body fits
    exact ⟨parts, each, kinds, congrArg _ trees⟩

/-- A derivation never reaches over an end mark. -/
theorem Derives.no_end (derives : Derives p kinds e) : Token.Kind.endOfInput ∉ kinds := by
  induction derives <;> simp_all

theorem DerivesStatement.no_end (derives : DerivesStatement kinds s) :
    Token.Kind.endOfInput ∉ kinds := by
  induction derives with
  | expression value => simpa using value.no_end
  | ifThen condition _ ih =>
    have free := condition.no_end
    simp [free, ih]
  | ifThenElse condition _ _ _ branchIh otherIh =>
    have free := condition.no_end
    simp [free, branchIh, otherIh]
  | block parts _ ih =>
    simp only [List.mem_cons, List.mem_append, List.mem_flatten, List.mem_map, not_or]
    refine ⟨by simp, ?_, by simp⟩
    rintro ⟨_, ⟨part, member, rfl⟩, inside⟩
    exact ih part member inside

theorem DerivesProgram.no_end (derives : DerivesProgram kinds root) :
    Token.Kind.endOfInput ∉ kinds := by
  obtain ⟨parts, each, rfl, _⟩ := derives
  intro inside
  obtain ⟨_, listed, inside⟩ := List.mem_flatten.mp inside
  obtain ⟨part, member, rfl⟩ := List.mem_map.mp listed
  exact (each part member).no_end inside

theorem DerivesProgram.accepted (derives : DerivesProgram kinds root)
    (spelled : Spelled kinds tokens (ending :: after)) (sign : ending.kind = .endOfInput) :
    ∃ least, ∀ limit ≥ least, program limit tokens = .ok root := by
  obtain ⟨body, fits, rfl, rfl⟩ := derivesProgram_iff.mp derives
  exact ⟨Sentence.mostLevels body, fun limit fitting => program_complete fits spelled sign fitting⟩

/-- Tokens of given kinds, closed by an end mark. -/
theorem exists_spelled (kinds : List Token.Kind) :
    ∃ tokens ending, Spelled kinds tokens [ending] ∧ ending.kind = .endOfInput := by
  refine ⟨kinds.map (fun kind => ⟨kind, "", .point .start⟩) ++ [.ending .start], .ending .start,
    ⟨_, rfl, ?_⟩, rfl⟩
  simp [Function.comp_def]

theorem DerivesProgram.unique (first : DerivesProgram kinds root)
    (second : DerivesProgram kinds other) : root = other := by
  obtain ⟨tokens, ending, spelled, sign⟩ := exists_spelled kinds
  obtain ⟨least, accepted⟩ := first.accepted spelled sign
  obtain ⟨least', accepted'⟩ := second.accepted spelled sign
  have same := (accepted (max least least') (Nat.le_max_left ..)).symm.trans
    (accepted' (max least least') (Nat.le_max_right ..))
  exact Except.ok.inj same

end Grammar
end Scriptlet
