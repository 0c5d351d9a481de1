import Scriptlet.Text.Blank
import Scriptlet.Token.Lexeme

/-! Scanning a source text into tokens. Between tokens there may be gaps of white space and of
comments, which run from two slashes to the end of the line. -/
namespace Scriptlet.Token

/-- Skips a gap: the place and the text after it. -/
def skipGap (place : Position) : List Char → Position × List Char
  | [] => (place, [])
  | c :: cs =>
    if c = '/' ∧ cs.head? = some '/' then
      let comment := (c :: cs).takeWhile (· ≠ '\n')
      skipGap (place.after comment) (cs.dropWhile (· ≠ '\n'))
    else if Text.isBlank c then skipGap (place.step c) cs
    else (place, c :: cs)
  termination_by cs => cs.length
  decreasing_by
    · have := (List.dropWhile_sublist (fun c => c ≠ '\n') (l := cs)).length_le
      simp only [List.length_cons]
      omega
    · simp

theorem skipGap_length_le (place : Position) (cs : List Char) :
    (skipGap place cs).2.length ≤ cs.length := by
  fun_induction skipGap place cs with
  | case1 => simp
  | case2 place c cs _ _ ih =>
    have := (List.dropWhile_sublist (fun c => decide (c ≠ '\n')) (l := cs)).length_le
    simp only [List.length_cons]
    omega
  | case3 place c cs _ _ ih => simp only [List.length_cons]; omega
  | case4 => simp

/-- The token that a lexeme makes; a number has to be finite. -/
def ofLexeme {cs : List Char} (place : Position) (lexeme : Lexeme cs) : Except ScanError Token :=
  let span := ⟨place, place.after lexeme.text⟩
  let token := ⟨lexeme.kind, String.ofList lexeme.text, span⟩
  match lexeme.kind with
  | .number value => if value.isFinite then .ok token else .error (.numberOutOfRange span)
  | _ => .ok token

/-- Scans the text that starts at `place`; the list holds the tokens so far, last one first. -/
def scanFrom (place : Position) (found : List Token) (cs : List Char) :
    Except ScanError (List Token) :=
  match gap : skipGap place cs with
  | (here, []) => .ok (ending here :: found).reverse
  | (here, c :: rest) => do
    have skipped : (c :: rest).length ≤ cs.length := by
      simpa only [gap] using skipGap_length_le place cs
    let lexeme ← Lexeme.read here c rest
    let token ← ofLexeme here lexeme
    scanFrom token.span.last (token :: found) lexeme.rest
  termination_by cs.length
  decreasing_by exact Nat.lt_of_lt_of_le lexeme.rest_shorter skipped

/-- The tokens of a source text, closed by the end-of-input mark. -/
def scan (source : String) : Except ScanError (List Token) := scanFrom .start [] source.toList

end Scriptlet.Token
