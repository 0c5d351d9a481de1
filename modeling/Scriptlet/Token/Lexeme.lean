import Scriptlet.Token.Basic
import Scriptlet.Token.StringLiteral

/-! One lexeme at the head of a text. Every scanner takes the longest lexeme of its kind: words and
numbers run as far as their characters do, and an operator of two characters goes before one of
one. A word that spells a keyword is that keyword. -/
namespace Scriptlet

/-- A lexeme cut off the head of a text, with what it stands for and the text after it. -/
structure Lexeme (cs : List Char) where
  kind : Token.Kind
  text : List Char
  rest : List Char
  whole : text ++ rest = cs
  nonempty : text ≠ []

namespace Lexeme

theorem rest_shorter {cs : List Char} (lexeme : Lexeme cs) :
    lexeme.rest.length < cs.length := by
  have length := congrArg List.length lexeme.whole
  have positive := List.length_pos_iff.mpr lexeme.nonempty
  simp only [List.length_append] at length
  omega

/-- Whether a name can start with this character; names are ASCII. -/
def isNameStart (c : Char) : Bool := c.isAlpha || c = '_'

/-- Whether a name can go on with this character. -/
def isNamePart (c : Char) : Bool := c.isAlphanum || c = '_'

def wordKind (word : List Char) : Token.Kind :=
  if word = "if".toList then .ifKeyword
  else if word = "else".toList then .elseKeyword
  else if word = "true".toList then .boolean true
  else if word = "false".toList then .boolean false
  else .identifier (String.ofList word)

def word (c : Char) (cs : List Char) : Lexeme (c :: cs) where
  kind := wordKind (c :: cs.takeWhile isNamePart)
  text := c :: cs.takeWhile isNamePart
  rest := cs.dropWhile isNamePart
  whole := by simp
  nonempty := by simp

/-- The number at the head of a text: digits with an optional point and optional digits after it,
or a point and digits. -/
def number? (cs : List Char) : Option (Lexeme cs) :=
  let digits := cs.takeWhile Char.isDigit
  match split : cs.dropWhile Char.isDigit with
  | '.' :: after =>
    let fraction := after.takeWhile Char.isDigit
    if digits.isEmpty && fraction.isEmpty then none
    else some {
      kind := .number (Decimal.ofPoint digits fraction).toFloat
      text := digits ++ '.' :: fraction
      rest := after.dropWhile Char.isDigit
      whole := by
        simp only [List.append_assoc, List.cons_append, fraction, digits,
          List.takeWhile_append_dropWhile]
        rw [← split, List.takeWhile_append_dropWhile]
      nonempty := by simp }
  | after =>
    if empty : digits = [] then none
    else some {
      kind := .number (Decimal.ofPoint digits []).toFloat
      text := digits
      rest := after
      whole := by rw [← split]; exact List.takeWhile_append_dropWhile
      nonempty := empty }

def mark? (c : Char) : Option Token.Kind :=
  if c = '(' then some .leftParen
  else if c = ')' then some .rightParen
  else if c = '\x7b' then some .leftBrace
  else if c = '\x7d' then some .rightBrace
  else if c = ';' then some .semicolon
  else (Operator.ofSymbol? c.toString).map .operator

def doubleMark? (c d : Char) : Option Token.Kind :=
  (Operator.ofSymbol? (String.ofList [c, d])).map .operator

def symbol? : (cs : List Char) → Option (Lexeme cs)
  | [] => none
  | [c] => (mark? c).map fun kind => ⟨kind, [c], [], rfl, by simp⟩
  | c :: d :: rest =>
    match doubleMark? c d with
    | some kind => some ⟨kind, [c, d], rest, rfl, by simp⟩
    | none => (mark? c).map fun kind => ⟨kind, [c], d :: rest, rfl, by simp⟩

/-- The string literal whose opening quote stands before `cs`. -/
def string (opened : Position) (cs : List Char) : Except ScanError (Lexeme ('"' :: cs)) :=
  match read : StringLiteral.readBody opened (opened.step '"') ['"'] [] cs with
  | .error e => .error e
  | .ok literal => .ok {
      kind := .string (String.ofList literal.value)
      text := literal.text
      rest := literal.rest
      whole := by simpa using StringLiteral.readBody_text read
      nonempty := StringLiteral.readBody_text_ne_nil read }

/-- The lexeme at the head of a text that starts at `place`. -/
def read (place : Position) (c : Char) (cs : List Char) : Except ScanError (Lexeme (c :: cs)) :=
  if quote : c = '"' then quote ▸ string place cs
  else if isNameStart c then .ok (word c cs)
  else match number? (c :: cs) <|> symbol? (c :: cs) with
    | some lexeme => .ok lexeme
    | none => .error (.unexpectedCharacter c place)

end Lexeme
end Scriptlet
