import Scriptlet.Json.Basic
import Scriptlet.Number.Print

/-! JSON text, on one line or indented by two spaces a level. -/
namespace Scriptlet.Json

/-- A character inside a JSON string. Only quotes, backslashes and controls are escaped. -/
def escape (c : Char) : String :=
  if c = '"' then "\\\""
  else if c = '\\' then "\\\\"
  else if c = '\n' then "\\n"
  else if c = '\r' then "\\r"
  else if c = '\t' then "\\t"
  else if c.toNat = 0x8 then "\\b"
  else if c.toNat = 0xc then "\\f"
  else if c.toNat < 0x20 then
    let digits := Nat.toDigits 16 c.toNat
    "\\u" ++ "".pushn '0' (4 - digits.length) ++ String.ofList digits
  else c.toString

def quote (text : String) : String :=
  "\"" ++ String.join (text.toList.map escape) ++ "\""

/-- How the parts of a list or an object are set apart: the line break before a part at a depth, and
what follows a key. -/
structure Layout where
  newline : Nat → String
  afterKey : String

/-- Everything on one line, without blanks. -/
def Layout.compact : Layout := ⟨fun _ => "", ":"⟩

/-- A line for every part. -/
def Layout.indented : Layout := ⟨fun depth => "\n" ++ "".pushn ' ' (2 * depth), ": "⟩

mutual

/-- A value as text, at a depth of nesting. -/
def renderAt (layout : Layout) (depth : Nat) : Json → String
  | null => "null"
  | boolean true => "true"
  | boolean false => "false"
  | integer value => toString value
  | float value => Number.json value
  | string value => quote value
  | array [] => "[]"
  | array (first :: more) =>
    "[" ++ layout.newline (depth + 1) ++ renderAt layout (depth + 1) first
      ++ renderItems layout (depth + 1) more ++ layout.newline depth ++ "]"
  | object [] => "\x7b\x7d"
  | object ((key, value) :: more) =>
    "\x7b" ++ layout.newline (depth + 1) ++ quote key ++ layout.afterKey
      ++ renderAt layout (depth + 1) value ++ renderFields layout (depth + 1) more
      ++ layout.newline depth ++ "\x7d"

/-- The items of a list after its first. -/
def renderItems (layout : Layout) (depth : Nat) : List Json → String
  | [] => ""
  | item :: rest =>
    "," ++ layout.newline depth ++ renderAt layout depth item ++ renderItems layout depth rest

/-- The fields of an object after its first. -/
def renderFields (layout : Layout) (depth : Nat) : List (String × Json) → String
  | [] => ""
  | (key, value) :: rest =>
    "," ++ layout.newline depth ++ quote key ++ layout.afterKey ++ renderAt layout depth value
      ++ renderFields layout depth rest

end

def render (layout : Layout) (value : Json) : String := renderAt layout 0 value

end Scriptlet.Json
