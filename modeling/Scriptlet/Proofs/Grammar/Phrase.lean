import Scriptlet.Token.Basic
import Scriptlet.Tree.Basic

/-! Parse trees. A phrase is an expression with the parentheses it is written with, and a sentence
is a statement made of phrases. Their tokens, their syntax trees and the levels of nesting that
reading them takes are computed from them, so that the grammar, the parser and the printer can be
compared on them. -/
namespace Scriptlet

/-- What a stretch of tokens spells: the tokens from `tokens` up to `rest` are of these kinds. -/
def Spelled (kinds : List Token.Kind) (tokens rest : List Token) : Prop :=
  ∃ used, tokens = used ++ rest ∧ used.map Token.kind = kinds

namespace Spelled

theorem append_iff : Spelled (first ++ second) tokens rest ↔
    ∃ between, Spelled first tokens between ∧ Spelled second between rest := by
  constructor
  · rintro ⟨used, rfl, kinds⟩
    obtain ⟨front, back, rfl, hf, hb⟩ := List.map_eq_append_iff.mp kinds
    exact ⟨back ++ rest, ⟨front, List.append_assoc .., hf⟩, ⟨back, rfl, hb⟩⟩
  · rintro ⟨_, ⟨front, rfl, hf⟩, ⟨back, rfl, hb⟩⟩
    exact ⟨front ++ back, (List.append_assoc ..).symm, by rw [List.map_append, hf, hb]⟩

theorem append (left : Spelled first tokens between) (right : Spelled second between rest) :
    Spelled (first ++ second) tokens rest := append_iff.mpr ⟨_, left, right⟩

@[simp] theorem nil_iff : Spelled [] tokens rest ↔ tokens = rest := by
  constructor
  · rintro ⟨used, rfl, kinds⟩
    rw [List.map_eq_nil_iff.mp kinds, List.nil_append]
  · rintro rfl
    exact ⟨[], rfl, rfl⟩

@[simp] theorem cons_iff : Spelled (kind :: kinds) tokens rest ↔
    ∃ token after, tokens = token :: after ∧ token.kind = kind ∧ Spelled kinds after rest := by
  constructor
  · rintro ⟨used, rfl, same⟩
    obtain ⟨token, after, rfl, hk, ha⟩ := List.map_eq_cons_iff.mp same
    exact ⟨token, after ++ rest, rfl, hk, after, rfl, ha⟩
  · rintro ⟨token, _, rfl, rfl, used, rfl, rfl⟩
    exact ⟨token :: used, rfl, rfl⟩

theorem token (t : Token) (rest : List Token) : Spelled [t.kind] (t :: rest) rest :=
  ⟨[t], rfl, rfl⟩

theorem cons (t : Token) (spelled : Spelled kinds after rest) :
    Spelled (t.kind :: kinds) (t :: after) rest := cons_iff.mpr ⟨t, after, rfl, rfl, spelled⟩

theorem map_kind (spelled : Spelled kinds (used ++ rest) rest) : used.map Token.kind = kinds := by
  obtain ⟨same, split, kinds⟩ := spelled
  rw [List.append_cancel_right split, kinds]

end Spelled

/-- An expression with the parentheses it is written with. -/
inductive Phrase where
  | number (value : Float)
  | string (value : String)
  | boolean (value : Bool)
  | identifier (name : String)
  | group (inner : Phrase)
  | binary (op : Operator) (left right : Phrase)

namespace Phrase

/-- The expression without its parentheses. -/
def tree : Phrase → Expr
  | number value => .number value
  | string value => .string value
  | boolean value => .boolean value
  | identifier name => .identifier name
  | group inner => inner.tree
  | binary op left right => .binary op left.tree right.tree

/-- The kinds of its tokens. -/
def kinds : Phrase → List Token.Kind
  | number value => [.number value]
  | string value => [.string value]
  | boolean value => [.boolean value]
  | identifier name => [.identifier name]
  | group inner => .leftParen :: (inner.kinds ++ [.rightParen])
  | binary op left right => left.kinds ++ .operator op :: right.kinds

/-- How tightly the outermost operator outside parentheses binds. -/
def precedence : Phrase → Precedence
  | binary op _ _ => op.precedence
  | _ => .primary

/-- Whether every operator stands between operands it can have: names before `=`, and otherwise
operands that bind as tightly on the left and more tightly on the right. -/
def Fits : Phrase → Prop
  | group inner => inner.Fits
  | binary op left right => left.Fits ∧ right.Fits ∧
      if op = .assign then ∃ name, left.tree = .identifier name
      else op.precedence.level ≤ left.precedence.level ∧
        op.precedence.level < right.precedence.level
  | _ => True

/-- How many operators of strength `p` are joined at the outermost place, leftwards. -/
def chain (p : Precedence) : Phrase → Nat
  | binary op left _ => if op.precedence = p then left.chain p + 1 else 0
  | _ => 0

/-- The levels of nesting that reading takes. The operators of a chain keep their levels until the
chain ends, so an operand is read under all the operators before it. -/
def levels : Phrase → Nat
  | group inner => inner.levels + 1
  | binary op left right => max left.levels (left.chain op.precedence + 1 + right.levels)
  | _ => 0

theorem chain_eq_zero (phrase : Phrase) (differs : phrase.precedence ≠ p) :
    phrase.chain p = 0 := by
  cases phrase with
  | binary op left right => exact if_neg differs
  | _ => rfl

/-- Only a name in parentheses has a name as its tree. -/
theorem precedence_of_tree_identifier (phrase : Phrase)
    (named : phrase.tree = .identifier name) : phrase.precedence = .primary := by
  cases phrase with
  | binary op left right => contradiction
  | _ => rfl

end Phrase

/-- The kinds of token that can begin an expression. -/
def Token.Kind.beginsPhrase : Token.Kind → Bool
  | number _ | string _ | boolean _ | identifier _ | leftParen => true
  | _ => false

/-- The kinds of token that can begin a statement. -/
def Token.Kind.beginsSentence (kind : Token.Kind) : Bool :=
  kind.beginsPhrase || kind = ifKeyword || kind = leftBrace

theorem Phrase.kinds_begin (phrase : Phrase) :
    ∃ kind more, phrase.kinds = kind :: more ∧ kind.beginsPhrase = true := by
  induction phrase with
  | binary op left right leftIh _ =>
    obtain ⟨kind, more, same, begins⟩ := leftIh
    exact ⟨kind, more ++ .operator op :: right.kinds, by rw [kinds, same]; rfl, begins⟩
  | _ => exact ⟨_, _, rfl, rfl⟩

/-- A statement made of phrases. -/
inductive Sentence where
  | ifThen (condition : Phrase) (branch : Sentence)
  | ifThenElse (condition : Phrase) (branch otherwise : Sentence)
  | expression (value : Phrase)
  | block (body : List Sentence)

/-- Whether an `else` after a statement would belong to it: it ends in a conditional that has no
`else` yet. Blocks are closed. -/
def Stmt.endsOpen : Stmt → Bool
  | ifThen _ _ => true
  | ifThenElse _ _ otherwise => otherwise.endsOpen
  | _ => false

namespace Sentence

mutual

/-- The statement without the parentheses of its expressions. -/
def tree : Sentence → Stmt
  | ifThen condition branch => .ifThen condition.tree branch.tree
  | ifThenElse condition branch otherwise =>
    .ifThenElse condition.tree branch.tree otherwise.tree
  | expression value => .expression value.tree
  | block body => .block (trees body)

/-- Sentence by sentence. -/
def trees : List Sentence → List Stmt
  | [] => []
  | s :: more => s.tree :: trees more

end

mutual

/-- The kinds of its tokens. -/
def kinds : Sentence → List Token.Kind
  | ifThen condition branch =>
    .ifKeyword :: .leftParen :: (condition.kinds ++ .rightParen :: branch.kinds)
  | ifThenElse condition branch otherwise =>
    .ifKeyword :: .leftParen :: (condition.kinds ++ .rightParen ::
      (branch.kinds ++ .elseKeyword :: otherwise.kinds))
  | expression value => value.kinds ++ [.semicolon]
  | block body => .leftBrace :: (allKinds body ++ [.rightBrace])

/-- One sentence after the other. -/
def allKinds : List Sentence → List Token.Kind
  | [] => []
  | s :: more => s.kinds ++ allKinds more

end

mutual

/-- Whether all phrases fit and every `else` belongs to the nearest conditional that can take
it. -/
def Fits : Sentence → Prop
  | ifThen condition branch => condition.Fits ∧ branch.Fits
  | ifThenElse condition branch otherwise =>
    condition.Fits ∧ branch.Fits ∧ otherwise.Fits ∧ branch.tree.endsOpen = false
  | expression value => value.Fits
  | block body => AllFit body

/-- Sentence by sentence. -/
def AllFit : List Sentence → Prop
  | [] => True
  | s :: more => s.Fits ∧ AllFit more

end

mutual

/-- The levels of nesting that reading takes. -/
def levels : Sentence → Nat
  | ifThen condition branch => max condition.levels branch.levels + 1
  | ifThenElse condition branch otherwise =>
    max condition.levels (max branch.levels otherwise.levels) + 1
  | expression value => value.levels + 1
  | block body => mostLevels body + 1

/-- The levels that reading one sentence after the other takes. -/
def mostLevels : List Sentence → Nat
  | [] => 0
  | s :: more => max s.levels (mostLevels more)

end

theorem kinds_begin (s : Sentence) :
    ∃ kind more, s.kinds = kind :: more ∧ kind.beginsSentence = true := by
  cases s with
  | expression value =>
    obtain ⟨kind, more, same, begins⟩ := value.kinds_begin
    exact ⟨kind, more ++ [.semicolon], by rw [kinds, same]; rfl,
      by rw [Token.Kind.beginsSentence, begins]; rfl⟩
  | ifThen => exact ⟨_, _, rfl, rfl⟩
  | ifThenElse => exact ⟨_, _, rfl, rfl⟩
  | block => exact ⟨_, _, rfl, rfl⟩

end Sentence
end Scriptlet
