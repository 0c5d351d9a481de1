import Scriptlet.Program
import Scriptlet.Proofs.Grammar.Room
import Scriptlet.Proofs.Tree.Written

/-! Programs that are parsed, written and parsed again. The parser gives exactly the trees that can
be written, and reads each of them back from its written form, given enough room. The room that the
written form takes is not the room that the first text took: the writer leaves out parentheses that
are not needed, and an operand outside parentheses is read under all the operators before it. -/
namespace Scriptlet

open Grammar

theorem mapError_eq_ok_iff {f : ε → δ} {result : Except ε α} :
    result.mapError f = .ok a ↔ result = .ok a := by
  cases result <;> simp [Except.mapError]

theorem parseSource_of_scan (scans : Token.scan source = .ok tokens) (limit : Nat) :
    parseSource limit source = (program limit tokens).mapError .parsing := by
  rw [parseSource, scans]
  rfl

theorem parseExpression_of_scan (scans : Token.scan source = .ok tokens) (limit : Nat) :
    parseExpression limit source = (singleExpression limit tokens).mapError .parsing := by
  rw [parseExpression, scans]
  rfl

theorem parseSource_wellFormed (parsed : parseSource limit source = .ok root) :
    root.WellFormedRoot := by
  cases scans : Token.scan source with
  | error e => rw [parseSource, scans] at parsed; contradiction
  | ok tokens =>
    rw [parseSource_of_scan scans, mapError_eq_ok_iff] at parsed
    exact program_wellFormed (Token.scan_proper scans) parsed

/-- A text made of the tokens of fitting sentences is read where there is room for them. -/
theorem parseSource_sentences {body : List Sentence} (fits : Sentence.AllFit body)
    (passes : Token.Passes source.toList (Sentence.allKinds body) []) (limit : Nat) :
    (Sentence.mostLevels body ≤ limit →
      parseSource limit source = .ok (.block (Sentence.trees body))) ∧
    (limit < Sentence.mostLevels body →
      ∃ e, parseSource limit source = .error (.parsing e) ∧ e.cause = .nestingLimit limit) := by
  obtain ⟨tokens, place, scans, kinds⟩ := passes.scan_eq
  have spelled : Spelled (Sentence.allKinds body) (tokens ++ [Token.ending place])
      (Token.ending place :: []) := ⟨tokens, rfl, kinds⟩
  rw [parseSource_of_scan scans]
  constructor
  · intro enough
    rw [(program_accepts_iff fits spelled rfl).1 enough]
    rfl
  · intro lacking
    obtain ⟨e, refused, cause⟩ := (program_accepts_iff fits spelled rfl).2 lacking
    exact ⟨e, by rw [refused]; rfl, cause⟩

namespace Stmt

/-- The levels of nesting that reading a written program takes. -/
def writtenLevels (root : Stmt) : Nat := Sentence.mostLevels (sentences root.statements)

/-- A written program is read where there is room for it, and otherwise refused for its nesting. -/
theorem parseSource_renderProgram {root : Stmt} (wellFormed : root.WellFormedRoot) (limit : Nat) :
    (root.writtenLevels ≤ limit → parseSource limit root.renderProgram = .ok root) ∧
    (limit < root.writtenLevels → ∃ e, parseSource limit root.renderProgram = .error (.parsing e) ∧
      e.cause = .nestingLimit limit) := by
  obtain ⟨body, rfl, formed⟩ := wellFormed
  have scanned := scanned_renderLines body formed 0 []
  rw [List.append_nil] at scanned
  have reads := parseSource_sentences (allFit_sentences body formed) scanned.passes limit
  rw [trees_sentences] at reads
  exact reads

end Stmt

theorem Expr.parseExpression_render {e : Expr} (wellFormed : e.WellFormed)
    (enough : e.phrase.levels ≤ limit) : parseExpression limit e.render = .ok e := by
  have nothing : Separate [] := fun _ first => by contradiction
  have scanned := e.scanned_render wellFormed nothing
  rw [List.append_nil] at scanned
  obtain ⟨tokens, place, scans, kinds⟩ := scanned.passes.scan_eq
  have spelled : Spelled e.phrase.kinds (tokens ++ [Token.ending place])
      (Token.ending place :: []) := ⟨tokens, rfl, kinds⟩
  rw [parseExpression_of_scan scans,
    singleExpression_complete (e.fits_phrase wellFormed) spelled rfl enough, e.tree_phrase]
  rfl

/-- The parser gives exactly the trees that can be written, and each of them is read back from its
written form under every limit from some limit on. -/
theorem written_reads_back :
    (∀ limit source root, parseSource limit source = .ok root → root.WellFormedRoot) ∧
    (∀ root : Stmt, root.WellFormedRoot →
      ∃ least, ∀ limit ≥ least, parseSource limit root.renderProgram = .ok root) ∧
    ∀ e : Expr, e.WellFormed → ∃ least, ∀ limit ≥ least, parseExpression limit e.render = .ok e := by
  refine ⟨?_, ?_, ?_⟩
  · intro limit source root parsed
    exact parseSource_wellFormed parsed
  · intro root wellFormed
    exact ⟨root.writtenLevels, fun limit => (Stmt.parseSource_renderProgram wellFormed limit).1⟩
  · intro e wellFormed
    exact ⟨e.phrase.levels, fun limit => Expr.parseExpression_render wellFormed⟩

/-- A program that was accepted is accepted again in its written form exactly where there is room
for the levels of that form; where there is not, it is refused for its nesting. -/
theorem rewritten_accepted_iff (parsed : parseSource limit source = .ok root) (again : Nat) :
    (parseSource again root.renderProgram = .ok root ↔ root.writtenLevels ≤ again) ∧
    (again < root.writtenLevels → ∃ e, parseSource again root.renderProgram = .error (.parsing e) ∧
      e.cause = .nestingLimit again) := by
  obtain ⟨enough, lacking⟩ := Stmt.parseSource_renderProgram (parseSource_wellFormed parsed) again
  refine ⟨⟨?_, enough⟩, lacking⟩
  intro accepted
  by_contra less
  obtain ⟨e, refused, _⟩ := lacking (Nat.lt_of_not_le less)
  rw [refused] at accepted
  contradiction

section GroupedSums

/-- The sum of two names. -/
def sumOf (left right : String) : Expr := .binary .plus (.identifier left) (.identifier right)

/-- A sum of two sums. -/
def sumOfSums : Stmt := .block [.expression (.binary .plus (sumOf "a" "b") (sumOf "c" "d"))]

theorem sumOf_wellFormed {a b : String}
    (left : Definition.isName a.toList = true ∧ a ∉ Token.keywords)
    (right : Definition.isName b.toList = true ∧ b ∉ Token.keywords) :
    (sumOf a b).WellFormed := ⟨left, right, fun assign => by contradiction⟩

theorem sums_wellFormed : (sumOf "a" "b").WellFormed ∧ (sumOf "c" "d").WellFormed :=
  ⟨sumOf_wellFormed (by decide) (by decide), sumOf_wellFormed (by decide) (by decide)⟩

/-- The phrase of a sum of two sums that are both in parentheses. -/
def groupedSums : Phrase :=
  .binary .plus (.group (sumOf "a" "b").phrase) (.group (sumOf "c" "d").phrase)

theorem scanned_groupedSums :
    Token.Scanned "(a + b) + (c + d);".toList (groupedSums.kinds ++ [.semicolon]) [] := by
  have text : "(a + b) + (c + d);".toList = '(' :: ((sumOf "a" "b").render.toList ++ ')' :: ' ' ::
      (Operator.plus.symbol.toList ++ ' ' :: '(' ::
        ((sumOf "c" "d").render.toList ++ [')', ';']))) := by decide
  rw [text]
  refine .mark (by decide) rfl (by trivial) ?_
  refine ((sumOf "a" "b").scanned_render sums_wellFormed.1 (separate_cons (by decide) _)).append ?_
  refine .mark (by decide) rfl (by trivial) (.space (.lexeme (Token.opens_operator .plus _) ?_))
  refine .space (.mark (by decide) rfl (by trivial) ?_)
  refine ((sumOf "c" "d").scanned_render sums_wellFormed.2 (separate_cons (by decide) _)).append ?_
  exact .mark (by decide) rfl (by trivial) (.mark (by decide) rfl (by trivial) .done)

theorem parseSource_groupedSums : parseSource 4 "(a + b) + (c + d);" = .ok sumOfSums := by
  have scanned : Token.Scanned "(a + b) + (c + d);".toList
      (Sentence.allKinds [.expression groupedSums]) [] := scanned_groupedSums
  have fits : Sentence.AllFit [.expression groupedSums] :=
    ⟨⟨Expr.fits_phrase _ sums_wellFormed.1, Expr.fits_phrase _ sums_wellFormed.2,
      by decide, by decide⟩, trivial⟩
  exact (parseSource_sentences fits scanned.passes 4).1 (by decide)

theorem sumOfSums_accepted : sumOfSums.writtenLevels = 5 ∧
    parseSource 5 sumOfSums.renderProgram = .ok sumOfSums :=
  ⟨by decide, (rewritten_accepted_iff parseSource_groupedSums 5).1.mpr (by decide)⟩

/-- A sum of two sums, each in parentheses, is accepted under a limit of four levels; without the
first parentheses, which are not needed, the second sum is read one level further in. -/
theorem sumOfSums_refused : parseSource 4 "(a + b) + (c + d);" = .ok sumOfSums ∧
    sumOfSums.renderProgram = "a + b + (c + d);\n" ∧
    parseSource 4 sumOfSums.renderProgram ≠ .ok sumOfSums := by
  have wellFormed := parseSource_wellFormed parseSource_groupedSums
  obtain ⟨e, refused, _⟩ := (Stmt.parseSource_renderProgram wellFormed 4).2 (by decide)
  refine ⟨parseSource_groupedSums, by decide, ?_⟩
  rw [refused]
  exact fun accepted => by contradiction

end GroupedSums

end Scriptlet
