import Scriptlet.Proofs.Grammar.Kinds
import Scriptlet.Proofs.Program.RoundTrip
import Scriptlet.Proofs.Token.Layout

/-! Sources in another layout. Nothing but the kinds of the tokens reaches the tree, and the lexemes
are found again with any spacing between them; so white space and comments decide nothing but the
places that errors name. -/
namespace Scriptlet

open Grammar

/-- Two readings that differ in places and lexemes at most: of the same tree, or of the same error
in the same context at the same kind of token. -/
inductive ReadAlike : Except ProgramError α → Except ProgramError α → Prop where
  | tree (root : α) : ReadAlike (.ok root) (.ok root)
  | refused {e e' : SyntaxError} (cause : e.cause = e'.cause) (context : e.context = e'.context)
      (found : e.found.map Token.kind = e'.found.map Token.kind) :
      ReadAlike (.error (.parsing e)) (.error (.parsing e'))

theorem SyntaxError.kind_bare (e : SyntaxError) :
    e.bare.found.map Token.kind = e.found.map Token.kind := by
  rw [bare, Option.map_map]
  rfl

/-- What cannot be told apart over bare tokens is read alike. -/
theorem readAlike_of_bare {result other : Except SyntaxError α}
    (same : result.mapError SyntaxError.bare = other.mapError SyntaxError.bare) :
    ReadAlike (result.mapError .parsing) (other.mapError .parsing) := by
  cases result with
  | ok root =>
    cases other with
    | ok _ => cases same; exact .tree root
    | error _ => contradiction
  | error e =>
    cases other with
    | ok _ => contradiction
    | error e' =>
      have bare : e.bare = e'.bare := Except.error.inj same
      refine .refused (congrArg (·.cause) bare) (congrArg (·.context) bare) ?_
      rw [← e.kind_bare, bare, e'.kind_bare]

/-- Layout and comments never matter: the lexemes of a source, with any spacing between them, are
scanned as what they were and parsed alike under every limit. -/
theorem layout_never_matters (scans : Token.scan source = .ok tokens) (layout : Token.Layout)
    (same : layout.lexemes = Token.lexemes tokens) :
    (∃ again, Token.scan layout.text = .ok again ∧
      again.map Token.kind = tokens.map Token.kind ∧
      again.map Token.lexeme = tokens.map Token.lexeme) ∧
    ∀ limit, ReadAlike (parseSource limit source) (parseSource limit layout.text) ∧
      ReadAlike (parseExpression limit source) (parseExpression limit layout.text) := by
  obtain ⟨again, rescans, kinds, lexemes⟩ := Token.scan_layout scans layout same
  refine ⟨⟨again, rescans, kinds, lexemes⟩, fun limit => ?_⟩
  obtain ⟨program, single⟩ := kinds_decide kinds.symm limit
  rw [parseSource_of_scan scans, parseSource_of_scan rescans, parseExpression_of_scan scans,
    parseExpression_of_scan rescans]
  exact ⟨readAlike_of_bare program, readAlike_of_bare single⟩

section Quotient

/-- A slash in front of a string that looks like a comment. -/
def quotient : String := "a/\"// b\";"

def quotientTokens : List Token := [
  ⟨.identifier "a", "a", ⟨1, 1⟩, ⟨1, 2⟩⟩,
  ⟨.operator .divide, "/", ⟨1, 2⟩, ⟨1, 3⟩⟩,
  ⟨.string "// b", "\"// b\"", ⟨1, 3⟩, ⟨1, 9⟩⟩,
  ⟨.semicolon, ";", ⟨1, 9⟩, ⟨1, 10⟩⟩,
  .ending ⟨1, 10⟩]

/-- The same lexemes over several lines, the slash in front of a comment. -/
def commentedQuotient : Token.Layout where
  first := "// c\n".toList
  parts := [("a", " //\n".toList), ("/", " // d\n".toList), ("\"// b\"", "\n".toList),
    (";", " ".toList)]
  spacing := .comment " c".toList (by decide) .nil
  parting := by
    have blank : Token.Spacing " ".toList := .blank (by decide) .nil
    have line : Token.Spacing "\n".toList := .blank (by decide) .nil
    have empty : Token.Spacing " //\n".toList := .blank (by decide) (.comment [] (by decide) .nil)
    have word : Token.Spacing " // d\n".toList :=
      .blank (by decide) (.comment " d".toList (by decide) .nil)
    simp only [List.forall_mem_cons, List.not_mem_nil, false_imp_iff, implies_true, and_true]
    exact ⟨⟨empty, rfl⟩, ⟨word, rfl⟩, ⟨line, rfl⟩, ⟨blank, rfl⟩⟩

theorem quotient_alike : Token.scan quotient = .ok quotientTokens ∧
    commentedQuotient.lexemes = Token.lexemes quotientTokens ∧
    (∃ again, Token.scan commentedQuotient.text = .ok again ∧
      again.map Token.kind = quotientTokens.map Token.kind ∧
      again.map Token.lexeme = quotientTokens.map Token.lexeme) ∧
    ∀ limit, ReadAlike (parseSource limit quotient) (parseSource limit commentedQuotient.text) ∧
      ReadAlike (parseExpression limit quotient)
        (parseExpression limit commentedQuotient.text) := by
  have scans : Token.scan quotient = .ok quotientTokens := by
    -- One round for each token, with the scanner known by its equation only.
    unfold Token.scan
    have step := Token.scanFrom_eq
    generalize Token.scanFrom = scanner at step ⊢
    iterate 5
      rw [step]
      cbv
  have same : commentedQuotient.lexemes = Token.lexemes quotientTokens := by decide
  exact ⟨scans, same, layout_never_matters scans commentedQuotient same⟩

end Quotient

end Scriptlet
