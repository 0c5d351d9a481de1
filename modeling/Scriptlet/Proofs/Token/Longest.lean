import Scriptlet.Proofs.Token.Placed
import Scriptlet.Proofs.Token.Spelling

/-! Longest tokens. Behind each gap the scanner takes the longest text that spells a token, and the
text decides what the token is: a word is a name unless it is a keyword exactly. -/
namespace Scriptlet
namespace Token

/-- A token in front of more text is the longest that there could be, and what its text says. -/
structure Longest (token : Token) (rest : List Char) : Prop where
  /-- Neither white space nor a comment begins here. -/
  solid : ∃ c more, token.lexeme.toList ++ rest = c :: more ∧ Solid c more
  spelled : Spells token.lexeme.toList token.kind
  only : ∀ kind, Spells token.lexeme.toList kind → kind = token.kind
  longest : ∀ text kind, Spells text kind → text <+: token.lexeme.toList ++ rest →
    text.length ≤ token.lexeme.toList.length
  named : ∀ name, token.kind = .identifier name ↔
    token.lexeme = name ∧ Definition.isName name.toList = true ∧ name ∉ keywords
  finite : token.kind.Finite

/-- Names are spelled by themselves. -/
theorem spells_identifier_iff {name : String} : Spells text (.identifier name) ↔
    text = name.toList ∧ Definition.isName text = true ∧ name ∉ keywords := by
  constructor
  · intro spells
    generalize same : Kind.identifier name = kind at spells
    cases spells with
    | symbol among =>
      subst same
      simp [symbols] at among
    | keyword among =>
      subst same
      simp [reserved] at among
    | name isName free =>
      cases same
      exact ⟨by simp, isName, free⟩
    | number numeral value => cases same
    | string quoted => cases same
  · rintro ⟨rfl, isName, free⟩
    have spells := Spells.name isName (by rwa [String.ofList_toList])
    rwa [String.ofList_toList] at spells

/-- What is read off the head of a text is the longest token that could stand there. -/
theorem longest_located {place : Position} {c : Char} {cs : List Char} {lexeme : Lexeme (c :: cs)}
    (solid : Solid c cs) (read : Lexeme.read place c cs = .ok lexeme)
    (finite : lexeme.kind.Finite) : (located place lexeme).Longest lexeme.rest := by
  have text : (located place lexeme).lexeme.toList = lexeme.text := String.toList_ofList
  have spelled := spells_of_read read
  constructor
  · exact ⟨c, cs, by rw [text, lexeme.whole], solid⟩
  · rwa [text]
  · intro kind spells
    rw [text] at spells
    exact spells.unique spelled
  · intro other kind spells begins
    rw [text, lexeme.whole] at begins
    rw [text]
    exact longest_of_read read spells begins
  · intro name
    constructor
    · intro same
      change lexeme.kind = _ at same
      rw [same] at spelled
      obtain ⟨spelling, isName, free⟩ := spells_identifier_iff.mp spelled
      rw [← text, String.toList_inj] at spelling
      rw [← text, spelling] at isName
      exact ⟨spelling, isName, free⟩
    · rintro ⟨spelling, isName, free⟩
      refine spelled.unique (spells_identifier_iff.mpr ?_)
      rw [← text, spelling]
      exact ⟨rfl, isName, free⟩
  · exact finite

/-- The text is the tokens with gaps between them, and each token is the longest where its gap has
ended. -/
structure TakesLongest (source : List Char) (tokens : List Token) (pieces : List Piece)
    (last : List Char) : Prop where
  whole : source = pieces.flatMap Piece.text ++ last
  found : tokens = pieces.map Piece.token ++ [.ending (.past source)]
  ends : Gap [] last
  gap : ∀ before piece after, pieces = before ++ piece :: after →
    Gap (piece.token.lexeme.toList ++ (after.flatMap Piece.text ++ last)) piece.gap
  place : ∀ before piece after, pieces = before ++ piece :: after →
    piece.token.span.first = .past (before.flatMap Piece.text ++ piece.gap)
  longest : ∀ before piece after, pieces = before ++ piece :: after →
    piece.token.Longest (after.flatMap Piece.text ++ last)

/-- The tokens of a source text are the longest that there could be: where a gap has ended, no
longer text spells a token. The lexeme alone says what the token is, and every number is finite. -/
theorem scan_takes_longest (scans : scan source = .ok tokens) :
    ∃ pieces last, TakesLongest source.toList tokens pieces last := by
  obtain ⟨pieces, last, whole, ends, same, fits⟩ :=
    (scan_finds scans).pieces_of Longest longest_located
  rw [Position.start_after] at same
  refine ⟨pieces, last, whole, same, ends, ?_, ?_, ?_⟩
  · intro before piece after split
    exact (fits before piece after split).1.gap
  · intro before piece after split
    rw [(fits before piece after split).1.span]
    exact Position.start_after _
  · intro before piece after split
    exact (fits before piece after split).2

/-- A word that begins with a keyword, an operator of two characters, and the keyword. -/
def keywordBound : String := "iffy<=if"

def keywordBoundTokens : List Token := [
  ⟨.identifier "iffy", "iffy", ⟨1, 1⟩, ⟨1, 5⟩⟩,
  ⟨.operator .lessEqual, "<=", ⟨1, 5⟩, ⟨1, 7⟩⟩,
  ⟨.ifKeyword, "if", ⟨1, 7⟩, ⟨1, 9⟩⟩,
  .ending ⟨1, 9⟩]

theorem keywordBound_taken : scan keywordBound = .ok keywordBoundTokens ∧
    ∃ pieces last, TakesLongest keywordBound.toList keywordBoundTokens pieces last := by
  have scans : scan keywordBound = .ok keywordBoundTokens := by
    -- One round for each token, with the scanner known by its equation only.
    unfold scan
    have step := scanFrom_eq
    generalize scanFrom = scanner at step ⊢
    iterate 4
      rw [step]
      cbv
  exact ⟨scans, scan_takes_longest scans⟩

end Token
end Scriptlet
