import Mathlib.Data.List.Induction
import Mathlib.Data.List.TakeWhile
import Scriptlet.Proofs.Token.Continued

/-! Where tokens stand. The scanner keeps one place and moves it over gaps and lexemes as it goes;
the lexemes with the gaps between them are the whole text, and every place that the scanner notes
is the one that counting lines and columns from the beginning of the text gives. -/
namespace Scriptlet

namespace Position

/-- Reading order: line by line, and by columns in a line. -/
instance : LE Position where
  le p q := p.line < q.line ∨ p.line = q.line ∧ p.column ≤ q.column

theorem le_iff {p q : Position} :
    p ≤ q ↔ p.line < q.line ∨ p.line = q.line ∧ p.column ≤ q.column := Iff.rfl

theorem le_refl (p : Position) : p ≤ p := .inr ⟨rfl, Nat.le_refl _⟩

theorem le_trans {p q r : Position} (first : p ≤ q) (second : q ≤ r) : p ≤ r := by
  rw [le_iff] at *
  omega

theorem le_step (p : Position) (c : Char) : p ≤ p.step c := by
  rw [le_iff, step]
  split
  · exact .inl (Nat.lt_succ_self _)
  · exact .inr ⟨rfl, Nat.le_succ _⟩

theorem le_after (p : Position) (text : List Char) : p ≤ p.after text := by
  induction text generalizing p with
  | nil => exact le_refl p
  | cons c text ih => exact le_trans (le_step p c) (ih _)

/-- The place past a text that begins a source: its line counts the line breaks of the text, and
its column the characters since the last of them. -/
def past (text : List Char) : Position :=
  ⟨text.count '\n' + 1, (text.reverse.takeWhile (· ≠ '\n')).length + 1⟩

theorem past_concat (text : List Char) (c : Char) : past (text ++ [c]) = (past text).step c := by
  by_cases newline : c = '\n' <;> simp [past, step, newline]

/-- Moving over a text counts its lines and columns. -/
theorem start_after (text : List Char) : start.after text = past text := by
  induction text using List.reverseRecOn with
  | nil => rfl
  | append_singleton text c ih => rw [after_append, ih, past_concat, after_cons, after_nil]

end Position

namespace Token

/-- A gap in front of `rest`: white space, and comments that run up to a line break or the end. -/
inductive Gap (rest : List Char) : List Char → Prop where
  | nil : Gap rest []
  | blank (space : Text.isBlank c = true) (onward : Gap rest gap) : Gap rest (c :: gap)
  | comment (inside : '\n' ∉ text) (ended : LineEnd (gap ++ rest)) (onward : Gap rest gap) :
      Gap rest ('/' :: '/' :: (text ++ gap))

theorem lineEnd_dropWhile (cs : List Char) : LineEnd (cs.dropWhile (· ≠ '\n')) := by
  intro c first
  have stops := List.head?_dropWhile_not (fun c => decide (c ≠ '\n')) cs
  rw [Option.mem_def.mp first] at stops
  simpa using stops

/-- What is skipped is a gap, and the place moves over it. -/
theorem skipGap_gap {place here : Position} {cs rest : List Char}
    (skips : skipGap place cs = (here, rest)) :
    ∃ gap, cs = gap ++ rest ∧ Gap rest gap ∧ here = place.after gap := by
  fun_induction skipGap place cs with
  | case1 place =>
    cases skips
    exact ⟨[], rfl, .nil, rfl⟩
  | case2 place c cs comment text ih =>
    obtain ⟨gap, after, onward, rfl⟩ := ih skips
    obtain ⟨rfl, next⟩ := comment
    obtain ⟨cs, rfl⟩ := List.head?_eq_some_iff.mp next
    have split : cs = cs.takeWhile (· ≠ '\n') ++ (gap ++ rest) := by
      rw [← after]
      exact List.takeWhile_append_dropWhile.symm
    have inside : '\n' ∉ cs.takeWhile (· ≠ '\n') := fun among => by
      simpa using List.mem_takeWhile_imp among
    refine ⟨'/' :: '/' :: (cs.takeWhile (· ≠ '\n') ++ gap), ?_, .comment inside ?_ onward, ?_⟩
    · rw [List.cons_append, List.cons_append, List.append_assoc, ← split]
    · rw [← after]
      exact lineEnd_dropWhile _
    · simp [text, Position.after_append]
  | case3 place c cs comment blank ih =>
    obtain ⟨gap, rfl, onward, rfl⟩ := ih skips
    exact ⟨c :: gap, rfl, .blank blank onward, rfl⟩
  | case4 place c cs comment solid =>
    cases skips
    exact ⟨[], rfl, .nil, rfl⟩

/-- A token with the gap in front of it. -/
structure Piece where
  gap : List Char
  token : Token

namespace Piece

def text (piece : Piece) : List Char := piece.gap ++ piece.token.lexeme.toList

/-- What a piece is between two stretches of a text, in which a stretch from the beginning
`leads` to a place. -/
structure Fits (leads : List Char → Position) (before : List Char) (piece : Piece)
    (after : List Char) : Prop where
  gap : Gap (piece.token.lexeme.toList ++ after) piece.gap
  nonempty : piece.token.lexeme ≠ ""
  inner : piece.token.kind ≠ .endOfInput
  span : piece.token.span = ⟨leads (before ++ piece.gap), leads (before ++ piece.text)⟩

/-- A piece fits behind more text, if it fits where that text has led. -/
theorem Fits.further {place : Position} {piece : Piece} (text : List Char)
    (fits : piece.Fits (place.after text).after before after) :
    piece.Fits place.after (text ++ before) after :=
  ⟨fits.gap, fits.nonempty, fits.inner, by
    simp only [fits.span, List.append_assoc, Position.after_append]⟩

section Made

variable {cs : List Char}

/-- The piece that a lexeme makes behind a gap. -/
def made (place : Position) (gap : List Char) (lexeme : Lexeme cs) : Piece :=
  ⟨gap, located (place.after gap) lexeme⟩

theorem lexeme_made (place : Position) (gap : List Char) (lexeme : Lexeme cs) :
    (made place gap lexeme).token.lexeme.toList = lexeme.text := String.toList_ofList

theorem text_made (place : Position) (gap : List Char) (lexeme : Lexeme cs) :
    (made place gap lexeme).text = gap ++ lexeme.text :=
  congrArg (gap ++ ·) (lexeme_made place gap lexeme)

theorem fits_made {gap : List Char} {lexeme : Lexeme cs} (place : Position) (between : Gap cs gap)
    (inner : lexeme.kind ≠ .endOfInput) :
    (made place gap lexeme).Fits place.after [] lexeme.rest := by
  refine ⟨?_, ?_, inner, ?_⟩
  · rw [lexeme_made, lexeme.whole]
    exact between
  · intro empty
    rw [← String.toList_inj, lexeme_made] at empty
    exact lexeme.nonempty empty
  · rw [List.nil_append, List.nil_append, text_made, Position.after_append]
    rfl

end Made

end Piece

/-- The text is the found tokens with gaps before them and a last gap. Each of them is as good as
what is read off the head of a text, with the text behind it, is known to be. -/
theorem Finds.pieces_of {place : Position} {cs : List Char} {tokens : List Token}
    (finds : Finds place cs tokens) (good : Token → List Char → Prop)
    (reads : ∀ {place : Position} {c : Char} {cs : List Char} {lexeme : Lexeme (c :: cs)},
      Solid c cs → Lexeme.read place c cs = .ok lexeme → lexeme.kind.Finite →
      good (located place lexeme) lexeme.rest) :
    ∃ (pieces : List Piece) (last : List Char), cs = pieces.flatMap Piece.text ++ last ∧
      Gap [] last ∧ tokens = pieces.map Piece.token ++ [.ending (place.after cs)] ∧
      ∀ before piece after, pieces = before ++ piece :: after →
        piece.Fits place.after (before.flatMap Piece.text) (after.flatMap Piece.text ++ last) ∧
          good piece.token (after.flatMap Piece.text ++ last) := by
  induction finds with
  | ending skips =>
    obtain ⟨gap, rfl, blank, rfl⟩ := skipGap_gap skips
    refine ⟨[], gap, by simp, blank, by simp, ?_⟩
    intro before piece after split
    simp at split
  | @token c after place cs here tokens lexeme skips read finite onward ih =>
    obtain ⟨pieces, last, whole, ends, rfl, fits⟩ := ih
    obtain ⟨gap, rfl, between, rfl⟩ := skipGap_gap skips
    have text := Piece.text_made place gap lexeme
    have first := Piece.fits_made place between (kind_ne_end read)
    have split : gap ++ c :: after = (Piece.made place gap lexeme).text ++ lexeme.rest := by
      rw [text, List.append_assoc, lexeme.whole]
    have leads : (place.after gap).after lexeme.text =
        place.after (Piece.made place gap lexeme).text := by
      rw [text, Position.after_append]
    rw [leads] at fits ⊢
    refine ⟨.made place gap lexeme :: pieces, last, ?_, ends, ?_, ?_⟩
    · rw [split, List.flatMap_cons, List.append_assoc, ← whole]
    · rw [split, Position.after_append]
      rfl
    · intro before other more same
      rcases List.cons_eq_append_iff.mp same with ⟨rfl, here⟩ | ⟨before, rfl, there⟩
      · obtain ⟨rfl, rfl⟩ := List.cons_eq_cons.mp here
        rw [← whole]
        exact ⟨first, reads (skipGap_stops skips) read finite⟩
      · obtain ⟨fits, good⟩ := fits before other more there
        exact ⟨fits.further _, good⟩

theorem Finds.pieces {place : Position} {cs : List Char} {tokens : List Token}
    (finds : Finds place cs tokens) :
    ∃ (pieces : List Piece) (last : List Char), cs = pieces.flatMap Piece.text ++ last ∧
      Gap [] last ∧ tokens = pieces.map Piece.token ++ [.ending (place.after cs)] ∧
      ∀ before piece after, pieces = before ++ piece :: after →
        piece.Fits place.after (before.flatMap Piece.text) (after.flatMap Piece.text ++ last) := by
  obtain ⟨pieces, last, whole, ends, same, fits⟩ :=
    finds.pieces_of (fun _ _ => True) fun _ _ _ => trivial
  exact ⟨pieces, last, whole, ends, same,
    fun before piece after split => (fits before piece after split).1⟩

/-- No span begins before the text does, and none before the ones in front of it end. -/
theorem Finds.ordered {place : Position} {cs : List Char} {tokens : List Token}
    (finds : Finds place cs tokens) :
    (∀ token ∈ tokens, place ≤ token.span.first ∧ token.span.first ≤ token.span.last) ∧
      tokens.Pairwise fun token next => token.span.last ≤ next.span.first := by
  induction finds with
  | ending skips =>
    obtain ⟨gap, rfl, blank, rfl⟩ := skipGap_gap skips
    refine ⟨fun token among => ?_, List.pairwise_singleton ..⟩
    rw [List.mem_singleton.mp among]
    exact ⟨Position.le_after _ _, Position.le_refl _⟩
  | @token c after place cs here tokens lexeme skips read finite onward ih =>
    obtain ⟨gap, rfl, between, rfl⟩ := skipGap_gap skips
    obtain ⟨bounds, pairwise⟩ := ih
    have here := place.le_after gap
    have there := (place.after gap).le_after lexeme.text
    refine ⟨fun token among => ?_, List.pairwise_cons.mpr ⟨fun next among => ?_, pairwise⟩⟩
    · rcases List.mem_cons.mp among with rfl | among
      · exact ⟨here, there⟩
      · obtain ⟨later, ahead⟩ := bounds token among
        exact ⟨Position.le_trans here (Position.le_trans there later), ahead⟩
    · exact (bounds next among).1

/-- The tokens account for a source text: it is their lexemes, with a gap before each of them and
a last gap, and every span is counted from the beginning of the text. -/
structure Accounts (source : List Char) (tokens : List Token) (pieces : List Piece)
    (last : List Char) : Prop where
  whole : source = pieces.flatMap Piece.text ++ last
  found : tokens = pieces.map Piece.token ++ [.ending (.past source)]
  fits : ∀ before piece after, pieces = before ++ piece :: after →
    piece.Fits .past (before.flatMap Piece.text) (after.flatMap Piece.text ++ last)
  ends : Gap [] last
  forward : ∀ token ∈ tokens, token.span.first ≤ token.span.last
  apart : tokens.Pairwise fun token next => token.span.last ≤ next.span.first

/-- The tokens of a source text account for all of it: nothing but white space and comments stands
between them, and their spans are exact, in order, and do not overlap. -/
theorem scan_accounts (scans : scan source = .ok tokens) :
    ∃ pieces last, Accounts source.toList tokens pieces last := by
  have finds := scan_finds scans
  obtain ⟨pieces, last, whole, gap, same, fits⟩ := finds.pieces
  obtain ⟨bounds, apart⟩ := finds.ordered
  have counted : Position.start.after = Position.past := funext Position.start_after
  rw [counted] at same
  rw [counted] at fits
  exact ⟨pieces, last, whole, same, fits, gap, fun token among => (bounds token among).2, apart⟩

/-- A comment between two lines, and a string that runs over a third. -/
def commentedSum : String := "a // b\n+ \"c\n\";"

def commentedSumTokens : List Token := [
  ⟨.identifier "a", "a", ⟨1, 1⟩, ⟨1, 2⟩⟩,
  ⟨.operator .plus, "+", ⟨2, 1⟩, ⟨2, 2⟩⟩,
  ⟨.string "c\n", "\"c\n\"", ⟨2, 3⟩, ⟨3, 2⟩⟩,
  ⟨.semicolon, ";", ⟨3, 2⟩, ⟨3, 3⟩⟩,
  .ending ⟨3, 3⟩]

theorem commentedSum_accounted : scan commentedSum = .ok commentedSumTokens ∧
    ∃ pieces last, Accounts commentedSum.toList commentedSumTokens pieces last := by
  have scans : scan commentedSum = .ok commentedSumTokens := by
    -- One round for each token. The scanner is known by its equation only, since its own
    -- recursion does not evaluate.
    unfold scan
    have step := scanFrom_eq
    generalize scanFrom = scanner at step ⊢
    iterate 5
      rw [step]
      cbv
  exact ⟨scans, scan_accounts scans⟩

end Token
end Scriptlet
