import Scriptlet.Json.Number

/-! Reading JSON text. A text holds one value, and between its tokens there may be spaces, tabs and
line breaks. Lists and objects nest at most `depthLimit` deep. -/
namespace Scriptlet.Json

/-- How deep lists and objects may nest. -/
def depthLimit : Nat := 127

abbrev Result (α : Type) (bound : Nat) := Except Stop (Reading Char α bound)

/-- Whether a character may stand between tokens. -/
def isGap (c : Char) : Bool := c = ' ' || c = '\n' || c = '\t' || c = '\r'

/-- Skips what may stand between tokens. -/
def skipGap (cs : List Char) : List Char := cs.dropWhile isGap

theorem skipGap_length_le (cs : List Char) : (skipGap cs).length ≤ cs.length :=
  (List.dropWhile_sublist isGap).length_le

/-- Reads the rest of a word such as `null`. -/
def readWord (value : Json) : (word cs : List Char) → Result Json (cs.length + 1)
  | [], cs => .ok (.leaving cs value)
  | _ :: _, [] => stopAt .endInValue []
  | expected :: word, c :: cs =>
    if c = expected then do
      return (← readWord value word cs).widen (Nat.le_succ _)
    else stopAt .expectedWord cs

def hexDigit? (c : Char) : Option Nat :=
  if c.isDigit then some (c.toNat - '0'.toNat)
  else if 'a' ≤ c ∧ c ≤ 'f' then some (c.toNat - 'a'.toNat + 10)
  else if 'A' ≤ c ∧ c ≤ 'F' then some (c.toNat - 'A'.toNat + 10)
  else none

def hexValue? (a b c d : Char) : Option Nat := do
  return ((← hexDigit? a) * 16 + (← hexDigit? b)) * 256
    + ((← hexDigit? c) * 16 + (← hexDigit? d))

/-- Stops where four bytes are not four hexadecimal digits, or are not even there. -/
def stopInHex (cs : List Char) : Except Stop α :=
  if byteCount cs < 4 then stopAt .endInString [] else .error ⟨.invalidEscape, byteCount cs - 4⟩

def readHex (cs : List Char) : Result Nat cs.length :=
  match cs with
  | a :: b :: c :: d :: rest =>
    match hexValue? a b c d with
    | some value => .ok ⟨value, rest, by simp only [List.length_cons]; omega⟩
    | none => stopInHex (a :: b :: c :: d :: rest)
  | cs => stopInHex cs

/-- Reads the second half of a character whose first half, a leading surrogate, has been read. -/
def readTrailing (leading : Nat) (cs : List Char) : Result Char cs.length :=
  match cs with
  | [] => stopAt .endInString []
  | c :: after =>
    if c ≠ '\\' then stopPast .halfSurrogate (c :: after)
    else match after with
      | [] => stopAt .endInString []
      | u :: rest =>
        if u ≠ 'u' then stopPast .halfSurrogate (u :: rest)
        else do
          let trailing ← readHex rest
          if 0xdc00 ≤ trailing.node ∧ trailing.node ≤ 0xdfff then
            let code := 0x10000 + (leading - 0xd800) * 0x400 + (trailing.node - 0xdc00)
            return ⟨Char.ofNat code, trailing.rest,
              Nat.lt_succ_of_lt (Nat.lt_succ_of_lt trailing.within)⟩
          else stopAt .loneSurrogate trailing.rest

/-- Reads an escape after its backslash. -/
def readEscape (cs : List Char) : Result Char cs.length :=
  match cs with
  | [] => stopAt .endInString []
  | c :: rest =>
    let plain (denoted : Char) : Result Char (rest.length + 1) := .ok (.leaving rest denoted)
    if c = '"' ∨ c = '\\' ∨ c = '/' then plain c
    else if c = 'b' then plain '\x08'
    else if c = 'f' then plain '\x0c'
    else if c = 'n' then plain '\n'
    else if c = 'r' then plain '\r'
    else if c = 't' then plain '\t'
    else if c = 'u' then do
      let code ← readHex rest
      if 0xdc00 ≤ code.node ∧ code.node ≤ 0xdfff then stopAt .loneSurrogate code.rest
      else if 0xd800 ≤ code.node ∧ code.node ≤ 0xdbff then
        return (← readTrailing code.node code.rest).widen
          (Nat.le_of_lt (Nat.lt_succ_of_lt code.within))
      else return ⟨Char.ofNat code.node, code.rest, Nat.lt_succ_of_lt code.within⟩
    else stopAt .invalidEscape rest

/-- Reads a string after its opening quote; the list holds its characters so far, last one
first. -/
def readString (found : List Char) (cs : List Char) (within : cs.length < bound) :
    Result String bound :=
  match cs with
  | [] => stopAt .endInString []
  | c :: rest =>
    have shorter : rest.length < bound := Nat.lt_trans (Nat.lt_succ_self _) within
    if c = '"' then .ok ⟨String.ofList found.reverse, rest, shorter⟩
    else if c = '\\' then do
      let escaped ← readEscape rest
      have : escaped.rest.length < rest.length + 1 := Nat.lt_succ_of_lt escaped.within
      readString (escaped.node :: found) escaped.rest (Nat.lt_trans this within)
    else if c.toNat < 0x20 then stopAt .rawControl rest
    else readString (c :: found) rest shorter
  termination_by cs.length
  decreasing_by
    · exact this
    · exact Nat.lt_succ_self rest.length

/-- Reads the colon after a key. -/
def readColon (cs : List Char) : Result Unit cs.length :=
  match gap : skipGap cs with
  | [] => stopPast .endInObject []
  | c :: rest =>
    if c = ':' then .ok ⟨(), rest, by
      have := skipGap_length_le cs
      simp only [gap, List.length_cons] at this
      omega⟩
    else stopPast .expectedColon (c :: rest)

mutual

/-- Reads a value; `room` levels of nesting are free. -/
def readValue (room : Nat) (cs : List Char) : Result Json cs.length :=
  match gap : skipGap cs with
  | [] => stopPast .endInValue []
  | c :: rest =>
    have shorter : rest.length < cs.length := by
      have := skipGap_length_le cs
      simp only [gap, List.length_cons] at this
      omega
    if c = 'n' then do return (← readWord .null "ull".toList rest).widen shorter
    else if c = 't' then do return (← readWord (.boolean true) "rue".toList rest).widen shorter
    else if c = 'f' then do return (← readWord (.boolean false) "alse".toList rest).widen shorter
    else if c = '-' then do return (← readNumber true rest).widen (Nat.le_of_lt shorter)
    else if c.isDigit then do return (← readNumber false (c :: rest)).widen shorter
    else if c = '"' then do
      let text ← readString [] rest (Nat.lt_succ_self _)
      return ⟨.string text.node, text.rest, Nat.lt_of_lt_of_le text.within shorter⟩
    else if c = '[' then
      match room with
      | 0 => stopPast .tooDeep (c :: rest)
      | room + 1 => readItems room true [] rest shorter
    else if c = '\x7b' then
      match room with
      | 0 => stopPast .tooDeep (c :: rest)
      | room + 1 => readFields room true [] rest shorter
    else stopPast .expectedValue (c :: rest)
  termination_by (room, cs.length, 0)

/-- Reads the items of a list up to its closing bracket; the list holds those before, last one
first. -/
def readItems (room : Nat) (isFirst : Bool) (found : List Json) (cs : List Char)
    (within : cs.length < bound) : Result Json bound :=
  match gap : skipGap cs with
  | [] => stopPast .endInArray []
  | c :: rest =>
    have skipped : rest.length < cs.length := by
      have := skipGap_length_le cs
      simp only [gap, List.length_cons] at this
      omega
    if c = ']' then .ok ⟨.array found.reverse, rest, Nat.lt_trans skipped within⟩
    else if isFirst then do
      let item ← readValue room cs
      have shorter : item.rest.length < cs.length := item.within
      readItems room false (item.node :: found) item.rest (Nat.lt_trans shorter within)
    else if c = ',' then
      match skipGap rest with
      | [] => stopPast .endInValue []
      | ']' :: after => stopPast .trailingComma (']' :: after)
      | _ => do
        let item ← readValue room rest
        have shorter : item.rest.length < cs.length := Nat.lt_trans item.within skipped
        readItems room false (item.node :: found) item.rest (Nat.lt_trans shorter within)
    else stopPast .expectedCommaOrBracket (c :: rest)
  termination_by (room, cs.length, 1)

/-- Reads the fields of an object up to its closing brace; the list holds those before, last one
first. -/
def readFields (room : Nat) (isFirst : Bool) (found : List (String × Json)) (cs : List Char)
    (within : cs.length < bound) : Result Json bound :=
  match gap : skipGap cs with
  | [] => stopPast .endInObject []
  | c :: rest =>
    have skipped : rest.length < cs.length := by
      have := skipGap_length_le cs
      simp only [gap, List.length_cons] at this
      omega
    if c = '\x7d' then .ok ⟨ofFields found.reverse, rest, Nat.lt_trans skipped within⟩
    else if isFirst then
      if c = '"' then do
        let field ← readField room rest
        have shorter : field.rest.length < cs.length := Nat.lt_trans field.within skipped
        readFields room false (field.node :: found) field.rest (Nat.lt_trans shorter within)
      else stopPast .keyNotString (c :: rest)
    else if c = ',' then
      match next : skipGap rest with
      | [] => stopPast .endInValue []
      | '"' :: after => do
        have opened : after.length < rest.length := by
          have := skipGap_length_le rest
          simp only [next, List.length_cons] at this
          omega
        let field ← readField room after
        have shorter : field.rest.length < cs.length :=
          Nat.lt_trans field.within (Nat.lt_trans opened skipped)
        readFields room false (field.node :: found) field.rest (Nat.lt_trans shorter within)
      | '\x7d' :: after => stopPast .trailingComma ('\x7d' :: after)
      | other => stopPast .keyNotString other
    else stopPast .expectedCommaOrBrace (c :: rest)
  termination_by (room, cs.length, 2)

/-- Reads a field after the opening quote of its key. -/
def readField (room : Nat) (cs : List Char) : Result (String × Json) cs.length := do
  let key ← readString [] cs (Nat.lt_succ_self _)
  let colon ← readColon key.rest
  have shorter : colon.rest.length < cs.length :=
    Nat.lt_of_lt_of_le colon.within (Nat.le_of_lt_succ key.within)
  let value ← readValue room colon.rest
  return ⟨(key.node, value.node), value.rest, Nat.lt_trans value.within shorter⟩
  termination_by (room, cs.length, 1)

end

def read (text : String) : Except TextError Json :=
  let result : Except Stop Json := do
    let value ← readValue depthLimit text.toList
    match skipGap value.rest with
    | [] => return value.node
    | rest => stopPast .trailingText rest
  result.mapError (·.locate text)

end Scriptlet.Json
