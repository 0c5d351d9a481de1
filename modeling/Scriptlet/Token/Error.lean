import Scriptlet.Position

/-! Why a source text has no tokens. Each error names the first bad place. -/
namespace Scriptlet

inductive ScanError where
  /-- No token starts with this character. -/
  | unexpectedCharacter (found : Char) (place : Position)
  /-- The string literal opened here is never closed. -/
  | unterminatedString (opened : Position)
  /-- The backslash here does not escape the character after it. -/
  | invalidEscape (escaped : Char) (place : Position)
  /-- The number literal is greater than every finite number. -/
  | numberOutOfRange (literal : Span)
  deriving DecidableEq, Repr

namespace ScanError

def span : ScanError → Span
  | unexpectedCharacter _ place => .point place
  | unterminatedString opened => .point opened
  | invalidEscape _ place => .point place
  | numberOutOfRange literal => literal

def message (e : ScanError) : String :=
  match e with
  | unexpectedCharacter found _ =>
    "Unexpected character '" ++ found.toString ++ "' at " ++ e.span.render
  | unterminatedString _ => "Unterminated string starting at " ++ e.span.render
  | invalidEscape escaped _ =>
    "Invalid escape sequence '\\" ++ escaped.toString ++ "' at " ++ e.span.render
  | numberOutOfRange _ => "Number literal at " ++ e.span.render ++ " is too large"

end ScanError
end Scriptlet
