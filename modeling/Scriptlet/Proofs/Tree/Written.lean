import Scriptlet.Proofs.Token.Lexeme
import Scriptlet.Proofs.Tree.WellFormed
import Scriptlet.Tree.Print

/-! Trees as they are written. Every tree has the phrase or sentence that it is written as, with
parentheses where the printer puts them; it fits when the tree is well formed, and the written text
is scanned into its tokens. -/
namespace Scriptlet

section Phrase

/-- A phrase as an operand, in parentheses where it binds more loosely than required. -/
def Phrase.grouped (required : Precedence) (phrase : Phrase) : Phrase :=
  if phrase.precedence.level < required.level then .group phrase else phrase

namespace Phrase

variable (required : Precedence) {phrase : Phrase}

@[simp] theorem tree_grouped : (phrase.grouped required).tree = phrase.tree := by
  rw [grouped]
  split <;> rfl

theorem fits_grouped (fits : phrase.Fits) : (phrase.grouped required).Fits := by
  rw [grouped]
  split <;> exact fits

theorem level_le_grouped : required.level ≤ (phrase.grouped required).precedence.level := by
  rw [grouped]
  split
  · exact required.level_le_primary
  · rename_i tight
    exact Nat.le_of_not_lt tight

end Phrase

namespace Expr

/-- The phrase that an expression is written as. -/
def phrase : Expr → Phrase
  | number value => .number value
  | string value => .string value
  | boolean value => .boolean value
  | identifier name => .identifier name
  | binary op left right =>
    .binary op (left.phrase.grouped (operandPrecedence op).1)
      (right.phrase.grouped (operandPrecedence op).2)

/-- The operands of an operator that groups to the left. -/
theorem operandPrecedence_folding (folding : op ≠ .assign) :
    operandPrecedence op = (op.precedence, op.precedence.tighter) :=
  if_neg (by simpa [Operator.groupsRight] using folding)

theorem precedence_phrase (e : Expr) : e.phrase.precedence = e.precedence := by
  cases e <;> rfl

theorem tree_phrase (e : Expr) : e.phrase.tree = e := by
  induction e with
  | binary op left right leftIh rightIh =>
    rw [phrase, Phrase.tree, Phrase.tree_grouped, Phrase.tree_grouped, leftIh, rightIh]
  | _ => rfl

theorem fits_phrase (e : Expr) (wellFormed : e.WellFormed) : e.phrase.Fits := by
  induction e with
  | binary op left right leftIh rightIh =>
    obtain ⟨leftFormed, rightFormed, target⟩ := wellFormed
    refine ⟨Phrase.fits_grouped _ (leftIh leftFormed), Phrase.fits_grouped _ (rightIh rightFormed),
      ?_⟩
    split
    · rename_i assign
      obtain ⟨name, rfl⟩ := target assign
      exact ⟨name, Phrase.tree_grouped _⟩
    · rename_i folding
      have next := Precedence.level_tighter op.precedence_ne_primary
      rw [operandPrecedence_folding folding]
      refine ⟨Phrase.level_le_grouped _, ?_⟩
      exact Nat.lt_of_succ_le (Nat.le_trans (Nat.le_of_eq next.symm) (Phrase.level_le_grouped _))
  | _ => trivial

end Expr

namespace Stmt

mutual

/-- The sentence that a statement is written as. -/
def sentence : Stmt → Sentence
  | ifThen condition branch => .ifThen condition.phrase branch.sentence
  | ifThenElse condition branch otherwise =>
    .ifThenElse condition.phrase branch.sentence otherwise.sentence
  | expression value => .expression value.phrase
  | block body => .block (sentences body)

/-- Statement by statement. -/
def sentences : List Stmt → List Sentence
  | [] => []
  | s :: more => s.sentence :: sentences more

end

mutual

theorem tree_sentence (s : Stmt) : s.sentence.tree = s := by
  cases s with
  | ifThen condition branch =>
    rw [sentence, Sentence.tree, condition.tree_phrase, tree_sentence branch]
  | ifThenElse condition branch otherwise =>
    rw [sentence, Sentence.tree, condition.tree_phrase, tree_sentence branch,
      tree_sentence otherwise]
  | expression value => rw [sentence, Sentence.tree, value.tree_phrase]
  | block body => rw [sentence, Sentence.tree, trees_sentences body]

theorem trees_sentences (body : List Stmt) : Sentence.trees (sentences body) = body := by
  cases body with
  | nil => rfl
  | cons s more => rw [sentences, Sentence.trees, tree_sentence s, trees_sentences more]

end

mutual

theorem fits_sentence (s : Stmt) (wellFormed : s.WellFormed) : s.sentence.Fits := by
  cases s with
  | ifThen condition branch =>
    exact ⟨condition.fits_phrase wellFormed.1, fits_sentence branch wellFormed.2⟩
  | ifThenElse condition branch otherwise =>
    obtain ⟨conditionFormed, branchFormed, otherFormed, shut⟩ := wellFormed
    exact ⟨condition.fits_phrase conditionFormed, fits_sentence branch branchFormed,
      fits_sentence otherwise otherFormed, (branch.tree_sentence).symm ▸ shut⟩
  | expression value => exact value.fits_phrase wellFormed
  | block body => exact allFit_sentences body wellFormed

theorem allFit_sentences (body : List Stmt) (wellFormed : AllWellFormed body) :
    Sentence.AllFit (sentences body) := by
  cases body with
  | nil => trivial
  | cons s more =>
    exact ⟨fits_sentence s wellFormed.1, allFit_sentences more wellFormed.2⟩

end

end Stmt

end Phrase

section Text

open Token

/-- Nothing that a word or a number could go on with. -/
def Separate (rest : List Char) : Prop := Stops (fun c => Lexeme.isNamePart c || c = '.') rest

theorem Separate.word (apart : Separate rest) : Stops Lexeme.isNamePart rest := fun c first =>
  (Bool.or_eq_false_iff.mp (apart c first)).1

theorem Separate.number (apart : Separate rest) :
    Stops (fun c => c.isDigit || c = '.') rest := fun c first => by
  have noPart := apart c first
  simp only [Lexeme.isNamePart, Char.isAlphanum, Bool.or_eq_false_iff] at noPart ⊢
  exact ⟨noPart.1.1.2, noPart.2⟩

theorem separate_cons (other : (Lexeme.isNamePart c || c = '.') = false) (rest : List Char) :
    Separate (c :: rest) := fun d first => by
  cases first
  exact other

namespace Token.Scanned

variable {cs rest : List Char} {kind : Kind} {kinds : List Kind}

theorem space (scanned : Scanned cs kinds rest) : Scanned (' ' :: cs) kinds rest :=
  .blank (by decide) scanned

theorem newline (scanned : Scanned cs kinds rest) : Scanned ('\n' :: cs) kinds rest :=
  .blank (by decide) scanned

theorem spaces (n : Nat) (scanned : Scanned cs kinds rest) :
    Scanned (List.replicate n ' ' ++ cs) kinds rest := by
  induction n with
  | zero => exact scanned
  | succ n ih => exact ih.space

theorem mark (sort : Marking c ∧ Single c) (mark : Lexeme.mark? c = some kind)
    (finite : kind.Finite) (scanned : Scanned cs kinds rest) :
    Scanned (c :: cs) (kind :: kinds) rest :=
  .lexeme (opens_mark sort.1 sort.2 mark finite cs) scanned

theorem word (name : List Char) (isName : Definition.isName name = true)
    (same : Lexeme.wordKind name = kind) (apart : Separate cs) (scanned : Scanned cs kinds rest) :
    Scanned (name ++ cs) (kind :: kinds) rest :=
  same ▸ .lexeme (opens_word isName apart.word) scanned

end Token.Scanned

namespace Expr

theorem scanned_parenthesize {phrase : Phrase} {written : String} (required : Precedence)
    (scans : ∀ rest, Separate rest → Scanned (written.toList ++ rest) phrase.kinds rest)
    (apart : Separate rest) :
    Scanned ((parenthesize required phrase.precedence written).toList ++ rest)
      (phrase.grouped required).kinds rest := by
  rw [parenthesize, Phrase.grouped]
  split
  · rw [Phrase.kinds]
    simp only [String.toList_append, List.append_assoc]
    refine .mark (by decide) rfl (by trivial) ?_
    exact (scans _ (separate_cons (by decide) rest)).append
      (.mark (by decide) rfl (by trivial) .done)
  · exact scans rest apart

theorem wordKind_of_not_keyword {name : String} (proper : name ∉ keywords) :
    Lexeme.wordKind name.toList = .identifier name := by
  simp only [keywords, List.mem_cons, List.not_mem_nil, or_false, not_or,
    ← String.toList_inj] at proper
  obtain ⟨ifWord, elseWord, trueWord, falseWord⟩ := proper
  rw [Lexeme.wordKind, if_neg ifWord, if_neg elseWord, if_neg trueWord, if_neg falseWord,
    String.ofList_toList]

theorem scanned_number {value : Float} (finite : value.isFinite = true)
    (clear : Number.signBit value = false) (apart : Separate rest) :
    Scanned ((Number.plain value).toList ++ rest) [.number value] rest := by
  obtain ⟨whole, fraction, text, nonempty, wholeDigits, fractionDigits, same⟩ :=
    Number.plain_reads finite clear
  rw [text]
  have opens := opens_number nonempty wholeDigits fractionDigits apart.number
    (by rw [same]; exact finite)
  rw [same] at opens
  exact .lexeme opens .done

/-- A written expression is scanned into the tokens of its phrase. -/
theorem scanned_render (e : Expr) (wellFormed : e.WellFormed) (apart : Separate rest) :
    Scanned (e.render.toList ++ rest) e.phrase.kinds rest := by
  induction e generalizing rest with
  | number value => exact scanned_number wellFormed.1 wellFormed.2 apart
  | string value => exact .lexeme (opens_string value rest) .done
  | boolean value => cases value <;> exact .word _ (by decide) rfl apart .done
  | identifier name =>
    exact .word _ wellFormed.1 (wordKind_of_not_keyword wellFormed.2) apart .done
  | binary op left right leftIh rightIh =>
    have first (middle : List Char) (apart : Separate middle) :=
      scanned_parenthesize (operandPrecedence op).1 (fun rest => leftIh wellFormed.1) apart
    have second := scanned_parenthesize (operandPrecedence op).2
      (fun rest => rightIh wellFormed.2.1) apart
    rw [precedence_phrase] at first second
    simp only [render, String.toList_append, List.append_assoc]
    refine (first _ (separate_cons (c := ' ') (by decide) _)).append ?_
    exact .space (.lexeme (opens_operator op _) second.space)

end Expr

namespace Stmt

theorem scanned_indentation (depth : Nat) (scanned : Scanned cs kinds rest) :
    Scanned ((indentation depth).toList ++ cs) kinds rest := by
  rw [indentation, Number.toList_pushn]
  exact scanned.spaces _

/-- The head of a conditional: the keyword, and the condition in parentheses. -/
theorem scanned_condition {condition : Expr} (wellFormed : condition.WellFormed)
    (scanned : Scanned cs kinds rest) :
    Scanned ("if (".toList ++ (condition.render.toList ++ (") ".toList ++ cs)))
      (.ifKeyword :: .leftParen :: (condition.phrase.kinds ++ .rightParen :: kinds)) rest := by
  refine .word ['i', 'f'] (by decide) rfl (separate_cons (c := ' ') (by decide) _) ?_
  refine .space (.mark (by decide) rfl (by trivial) ?_)
  refine (condition.scanned_render wellFormed (separate_cons (c := ')') (by decide) _)).append ?_
  exact .mark (by decide) rfl (by trivial) scanned.space

mutual

/-- A written statement is scanned into the tokens of its sentence. -/
theorem scanned_renderAt (s : Stmt) (wellFormed : s.WellFormed) (depth : Nat) (rest : List Char) :
    Scanned ((renderAt depth s).toList ++ rest) s.sentence.kinds rest := by
  cases s with
  | ifThen condition branch =>
    simp only [renderAt, String.toList_append, List.append_assoc]
    exact scanned_condition wellFormed.1 (scanned_renderAt branch wellFormed.2 depth rest)
  | ifThenElse condition branch otherwise =>
    obtain ⟨conditionFormed, branchFormed, otherFormed, _⟩ := wellFormed
    simp only [renderAt, String.toList_append, List.append_assoc]
    refine scanned_condition conditionFormed ?_
    refine (scanned_renderAt branch branchFormed depth _).append (.space ?_)
    refine .word ['e', 'l', 's', 'e'] (by decide) rfl
      (separate_cons (c := ' ') (by decide) _) ?_
    exact .space (scanned_renderAt otherwise otherFormed depth rest)
  | expression value =>
    simp only [renderAt, String.toList_append, List.append_assoc]
    refine (value.scanned_render wellFormed (separate_cons (c := ';') (by decide) _)).append ?_
    exact .mark (by decide) rfl (by trivial) .done
  | block body =>
    cases body with
    | nil =>
      rw [renderAt]
      refine .mark (c := '\x7b') (by decide) rfl (by trivial) ?_
      exact .mark (by decide) rfl (by trivial) .done
    | cons first more =>
      simp only [renderAt, String.toList_append, List.append_assoc]
      refine .mark (c := '\x7b') (by decide) rfl (by trivial) (.newline ?_)
      refine (scanned_renderLines (first :: more) wellFormed (depth + 1) _).append ?_
      exact scanned_indentation depth (.mark (by decide) rfl (by trivial) .done)

theorem scanned_renderLines (body : List Stmt) (wellFormed : AllWellFormed body) (depth : Nat)
    (rest : List Char) :
    Scanned ((renderLines depth body).toList ++ rest) (Sentence.allKinds (sentences body))
      rest := by
  cases body with
  | nil => exact .done
  | cons s more =>
    simp only [renderLines, String.toList_append, List.append_assoc]
    refine scanned_indentation depth ?_
    refine (scanned_renderAt s wellFormed.1 depth _).append (.newline ?_)
    exact scanned_renderLines more wellFormed.2 depth rest

end

end Stmt

end Text
end Scriptlet
