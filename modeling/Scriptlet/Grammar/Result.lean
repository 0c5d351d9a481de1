import Scriptlet.Grammar.Error
import Scriptlet.Reading

/-! What a rule of the grammar returns, and how it reads a single token. -/
namespace Scriptlet.Grammar

/-- A rule reads a node off the head of the tokens or stops at a syntax error. -/
abbrev Result (α : Type) (bound : Nat) := Except SyntaxError (Reading Token α bound)

/-- Stops at the first of the tokens. -/
def stop (cause : SyntaxError.Cause) (tokens : List Token) : Except SyntaxError α :=
  .error ⟨cause, [], tokens.head?⟩

/-- Reads a token of one kind. -/
def expect (kind : Token.Kind) : (tokens : List Token) → Result Unit tokens.length
  | [] => stop (.expected kind) []
  | token :: rest =>
    if token.kind = kind then .ok (.leaving rest ())
    else stop (.expected kind) (token :: rest)

end Scriptlet.Grammar
