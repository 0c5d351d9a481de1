import Scriptlet.Proofs.Program.RoundTrip

/-! Parentheses that every text of a tree needs. An operand that binds too loosely for its place
stands in parentheses of its own in every phrase with that tree, and the printer puts parentheses
nowhere else; so no text that is read as the tree has fewer of them than the written one. -/
namespace Scriptlet

/-- The opening parentheses among tokens of these kinds. -/
def openings (kinds : List Token.Kind) : Nat := kinds.count .leftParen

@[simp] theorem openings_nil : openings [] = 0 := rfl

@[simp] theorem openings_append (front back : List Token.Kind) :
    openings (front ++ back) = openings front + openings back := List.count_append

@[simp] theorem openings_cons (kind : Token.Kind) (kinds : List Token.Kind) :
    openings (kind :: kinds) = openings kinds + if kind = .leftParen then 1 else 0 := by
  simp only [openings, List.count_cons, beq_iff_eq]

namespace Phrase

theorem openings_grouped_loose {phrase : Phrase} {required : Precedence}
    (loose : phrase.precedence.level < required.level) :
    openings (phrase.grouped required).kinds = openings phrase.kinds + 1 := by
  rw [grouped, if_pos loose]
  simp [kinds]

theorem openings_grouped_tight {phrase : Phrase} {required : Precedence}
    (tight : required.level ≤ phrase.precedence.level) :
    openings (phrase.grouped required).kinds = openings phrase.kinds := by
  rw [grouped, if_neg (Nat.not_lt_of_le tight)]

/-- At most one pair of parentheses is put around an operand. -/
theorem openings_grouped_le (phrase : Phrase) (required : Precedence) :
    openings (phrase.grouped required).kinds ≤ openings phrase.kinds + 1 := by
  rcases Nat.lt_or_ge phrase.precedence.level required.level with loose | tight
  · exact Nat.le_of_eq (openings_grouped_loose loose)
  · exact Nat.le_succ_of_le (Nat.le_of_eq (openings_grouped_tight tight))

theorem openings_binary (op : Operator) (left right : Phrase) :
    openings (binary op left right).kinds = openings left.kinds + openings right.kinds := by
  simp [kinds]

/-- The operands of a fitting phrase bind as tightly as the printer requires of them. -/
theorem Fits.operands {op : Operator} {left right : Phrase} (fits : (binary op left right).Fits) :
    (Expr.operandPrecedence op).1.level ≤ left.precedence.level ∧
      (Expr.operandPrecedence op).2.level ≤ right.precedence.level := by
  obtain ⟨_, _, operands⟩ := fits
  split at operands
  · rename_i assign
    subst assign
    obtain ⟨name, named⟩ := operands
    rw [left.precedence_of_tree_identifier named]
    exact ⟨by decide, Nat.zero_le _⟩
  · rename_i folding
    rw [Expr.operandPrecedence_folding folding,
      Precedence.level_tighter op.precedence_ne_primary]
    exact operands

/-- No phrase has fewer parentheses than the one that its tree is written as, in any place that it
binds tightly enough for. -/
theorem openings_written_le (phrase : Phrase) (fits : phrase.Fits) (required : Precedence)
    (binds : required.level ≤ phrase.precedence.level) :
    openings (phrase.tree.phrase.grouped required).kinds ≤ openings phrase.kinds := by
  induction phrase generalizing required with
  | group inner ih =>
    calc openings (inner.tree.phrase.grouped required).kinds
        ≤ openings inner.tree.phrase.kinds + 1 := openings_grouped_le ..
      _ = openings (inner.tree.phrase.grouped .assignment).kinds + 1 := by
        rw [openings_grouped_tight (Nat.zero_le _)]
      _ ≤ openings inner.kinds + 1 := Nat.succ_le_succ (ih fits .assignment (Nat.zero_le _))
      _ = openings (group inner).kinds := by simp [kinds]
  | binary op left right leftIh rightIh =>
    have operands := fits.operands
    have first := leftIh fits.1 _ operands.1
    have second := rightIh fits.2.1 _ operands.2
    have outer : openings ((binary op left right).tree.phrase.grouped required).kinds =
        openings (binary op left right).tree.phrase.kinds := openings_grouped_tight binds
    rw [outer, tree, Expr.phrase, openings_binary, openings_binary]
    exact Nat.add_le_add first second
  | _ => exact Nat.le_of_eq (openings_grouped_tight binds)

/-- The same for a phrase that stands alone. -/
theorem openings_phrase_le (phrase : Phrase) (fits : phrase.Fits) :
    openings phrase.tree.phrase.kinds ≤ openings phrase.kinds := by
  have least := phrase.openings_written_le fits .assignment (Nat.zero_le _)
  rwa [openings_grouped_tight (Nat.zero_le _)] at least

end Phrase

namespace Sentence

mutual

/-- No sentence has fewer parentheses than the one that its tree is written as. -/
theorem openings_sentence_le (s : Sentence) (fits : s.Fits) :
    openings s.tree.sentence.kinds ≤ openings s.kinds := by
  cases s with
  | ifThen condition branch =>
    have test := condition.openings_phrase_le fits.1
    have inner := openings_sentence_le branch fits.2
    simp only [tree, Stmt.sentence, kinds, openings_append, openings_cons, reduceCtorEq, ↓reduceIte]
    omega
  | ifThenElse condition branch otherwise =>
    obtain ⟨conditionFits, branchFits, otherFits, _⟩ := fits
    have test := condition.openings_phrase_le conditionFits
    have inner := openings_sentence_le branch branchFits
    have other := openings_sentence_le otherwise otherFits
    simp only [tree, Stmt.sentence, kinds, openings_append, openings_cons, reduceCtorEq, ↓reduceIte]
    omega
  | expression value =>
    have least := value.openings_phrase_le fits
    simpa [tree, Stmt.sentence, kinds] using least
  | block body =>
    have least := openings_sentences_le body fits
    simpa [tree, Stmt.sentence, kinds] using least

theorem openings_sentences_le (body : List Sentence) (fits : AllFit body) :
    openings (allKinds (Stmt.sentences (trees body))) ≤ openings (allKinds body) := by
  cases body with
  | nil => exact Nat.le_refl _
  | cons s more =>
    have first := openings_sentence_le s fits.1
    have others := openings_sentences_le more fits.2
    simpa [trees, Stmt.sentences, allKinds] using Nat.add_le_add first others

end

end Sentence

/-- The opening parentheses of a written program are those of its sentences. -/
theorem Stmt.scan_renderProgram {body : List Stmt} (wellFormed : AllWellFormed body) :
    ∃ written, Token.scan (Stmt.block body).renderProgram = .ok written ∧
      openings (written.map Token.kind) = openings (Sentence.allKinds (sentences body)) := by
  have scanned := scanned_renderLines body wellFormed 0 []
  rw [List.append_nil] at scanned
  obtain ⟨tokens, place, scans, kinds⟩ := scanned.passes.scan_eq
  refine ⟨_, scans, ?_⟩
  rw [List.map_append, openings_append, kinds]
  rfl

/-- A written program has the fewest parentheses of all the texts of its tree. It is one of them,
and no source text that is read as the tree has fewer. -/
theorem written_has_fewest_parentheses (parsed : parseSource limit source = .ok root) :
    (∀ again, root.writtenLevels ≤ again → parseSource again root.renderProgram = .ok root) ∧
    ∃ tokens written, Token.scan source = .ok tokens ∧
      Token.scan root.renderProgram = .ok written ∧
      openings (written.map Token.kind) ≤ openings (tokens.map Token.kind) := by
  have rootWellFormed := parseSource_wellFormed parsed
  constructor
  · intro again
    exact (Stmt.parseSource_renderProgram rootWellFormed again).1
  · obtain ⟨body, rfl, wellFormed⟩ := rootWellFormed
    obtain ⟨written, rescans, same⟩ := Stmt.scan_renderProgram wellFormed
    cases scans : Token.scan source with
    | error e => rw [parseSource, scans] at parsed; contradiction
    | ok tokens =>
      rw [parseSource_of_scan scans, mapError_eq_ok_iff] at parsed
      obtain ⟨found, ending, after, fits, root, ⟨used, rfl, kinds⟩, _⟩ :=
        Grammar.program_sound parsed
      obtain rfl := Stmt.block.inj root
      refine ⟨_, written, rfl, rescans, ?_⟩
      calc openings (written.map Token.kind)
          = openings (Sentence.allKinds (Stmt.sentences (Sentence.trees found))) := same
        _ ≤ openings (Sentence.allKinds found) := Sentence.openings_sentences_le found fits
        _ = openings (used.map Token.kind) := by rw [kinds]
        _ ≤ openings ((used ++ ending :: after).map Token.kind) := by
          rw [List.map_append, openings_append]
          exact Nat.le_add_right ..

/-- A sum of two sums, each in parentheses, which is written with the second pair only. -/
theorem sumOfSums_fewest_parentheses : parseSource 4 "(a + b) + (c + d);" = .ok sumOfSums ∧
    (∀ again, 5 ≤ again → parseSource again sumOfSums.renderProgram = .ok sumOfSums) ∧
    ∃ tokens written, Token.scan "(a + b) + (c + d);" = .ok tokens ∧
      Token.scan sumOfSums.renderProgram = .ok written ∧
      openings (written.map Token.kind) ≤ openings (tokens.map Token.kind) :=
  ⟨parseSource_groupedSums, written_has_fewest_parentheses parseSource_groupedSums⟩

end Scriptlet
