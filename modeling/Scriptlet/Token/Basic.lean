import Scriptlet.Number.Print
import Scriptlet.Operator
import Scriptlet.Position
import Scriptlet.Text.Quoted

/-! Tokens: what a piece of source text stands for, the piece itself, and where it is. -/
namespace Scriptlet

/-- What a token stands for. -/
inductive Token.Kind where
  | leftParen
  | rightParen
  | leftBrace
  | rightBrace
  | semicolon
  | operator (op : Operator)
  | identifier (name : String)
  | string (value : String)
  | number (value : Float)
  | ifKeyword
  | elseKeyword
  | boolean (value : Bool)
  | endOfInput
  deriving DecidableEq

structure Token where
  kind : Token.Kind
  lexeme : String
  span : Span
  deriving DecidableEq

namespace Token

def Kind.render : Kind → String
  | leftParen => "("
  | rightParen => ")"
  | leftBrace => "\x7b"
  | rightBrace => "\x7d"
  | semicolon => ";"
  | operator op => op.symbol
  | identifier name => name
  | string value => Text.quoted value
  | number value => Number.plain value
  | ifKeyword => "if"
  | elseKeyword => "else"
  | boolean true => "true"
  | boolean false => "false"
  | endOfInput => "end of input"

/-- The mark after the last token of a source text. -/
def ending (p : Position) : Token := ⟨.endOfInput, "", .point p⟩

end Token
end Scriptlet
