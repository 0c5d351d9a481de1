import Scriptlet.Number.Read
import Scriptlet.Token.Lexeme
import Scriptlet.Value

/-! Definitions of globals from outside a program, written `NAME=VALUE`. -/
namespace Scriptlet

structure Definition where
  name : String
  value : Value

namespace Definition

/-- Whether a text has the form of a name. -/
def isName : List Char → Bool
  | [] => false
  | c :: rest => Lexeme.isNameStart c && rest.all Lexeme.isNamePart

/-- The value that a text stands for: a number if it reads as one, a truth value, or else the text
itself. -/
def readValue (text : String) : Value :=
  match Number.ofText? text with
  | some value => .number value
  | none =>
    if text = "true" then .boolean true
    else if text = "false" then .boolean false
    else .string text

/-- Reads a definition. The first equals sign ends the name. -/
def read? (text : String) : Option Definition :=
  let name := text.toList.takeWhile (· ≠ '=')
  match text.toList.dropWhile (· ≠ '=') with
  | [] => none
  | _ :: value =>
    if isName name then some ⟨String.ofList name, readValue (String.ofList value)⟩ else none

def invalidMessage (text : String) : String :=
  "Invalid definition \"" ++ text ++ "\", expected NAME=VALUE"

end Definition
end Scriptlet
