/-! Why a text is not JSON. -/
namespace Scriptlet.Json

inductive Fault where
  | endInValue
  | endInArray
  | endInObject
  | endInString
  | expectedColon
  | expectedCommaOrBracket
  | expectedCommaOrBrace
  | expectedWord
  | expectedValue
  | invalidEscape
  | invalidNumber
  | numberOutOfRange
  | rawControl
  | keyNotString
  | loneSurrogate
  | halfSurrogate
  | trailingComma
  | trailingText
  | tooDeep
  deriving DecidableEq, Repr

namespace Fault

/-- Whether more text could have mended it. -/
def isEnd : Fault → Bool
  | endInValue | endInArray | endInObject | endInString => true
  | _ => false

def message : Fault → String
  | endInValue => "EOF while parsing a value"
  | endInArray => "EOF while parsing a list"
  | endInObject => "EOF while parsing an object"
  | endInString => "EOF while parsing a string"
  | expectedColon => "expected `:`"
  | expectedCommaOrBracket => "expected `,` or `]`"
  | expectedCommaOrBrace => "expected `,` or `\x7d`"
  | expectedWord => "expected ident"
  | expectedValue => "expected value"
  | invalidEscape => "invalid escape"
  | invalidNumber => "invalid number"
  | numberOutOfRange => "number out of range"
  | rawControl => "control character (\\u0000-\\u001F) found while parsing a string"
  | keyNotString => "key must be a string"
  | loneSurrogate => "lone leading surrogate in hex escape"
  | halfSurrogate => "unexpected end of hex escape"
  | trailingComma => "trailing comma"
  | trailingText => "trailing characters"
  | tooDeep => "recursion limit exceeded"

end Fault

/-- A fault and where it was met; columns count bytes. -/
structure TextError where
  fault : Fault
  line : Nat
  column : Nat
  deriving DecidableEq, Repr

def TextError.message (e : TextError) : String :=
  e.fault.message ++ " at line " ++ toString e.line ++ " column " ++ toString e.column

/-- A fault that is known by the number of bytes that follow its place. -/
structure Stop where
  fault : Fault
  bytesLeft : Nat
  deriving DecidableEq, Repr

def byteCount (text : List Char) : Nat := text.foldl (fun n c => n + c.utf8Size) 0

/-- Stops in front of the rest of a text. -/
def stopAt (fault : Fault) (rest : List Char) : Except Stop α :=
  .error ⟨fault, byteCount rest⟩

/-- Stops past the next byte of a text, if there is one. -/
def stopPast (fault : Fault) (rest : List Char) : Except Stop α :=
  .error ⟨fault, byteCount rest - 1⟩

/-- Finds the line and the column of a stop in a text. -/
def Stop.locate (stop : Stop) (text : String) : TextError :=
  let before := text.toUTF8.toList.take (text.utf8ByteSize - stop.bytesLeft)
  let newline : UInt8 := 10
  ⟨stop.fault, 1 + before.count newline,
    (before.reverse.takeWhile (· ≠ newline)).length⟩

end Scriptlet.Json
