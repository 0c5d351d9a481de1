import Scriptlet.Token.Error

/-! String literals of the source language, written and read. A literal stands between double
quotes; quotes and backslashes in it are escaped, newlines, tabs and carriage returns have an
escape of their own, and every other character may stand for itself. -/
namespace Scriptlet.StringLiteral

/-- The written form of one character. -/
def escape (c : Char) : List Char :=
  if c = '"' then ['\\', '"']
  else if c = '\\' then ['\\', '\\']
  else if c = '\n' then ['\\', 'n']
  else if c = '\t' then ['\\', 't']
  else if c = '\r' then ['\\', 'r']
  else [c]

def write (value : String) : String :=
  "\"" ++ String.ofList (value.toList.flatMap escape) ++ "\""

/-- What a backslash followed by this character denotes. -/
def unescape? (c : Char) : Option Char :=
  if c = '"' then some '"'
  else if c = '\\' then some '\\'
  else if c = 'n' then some '\n'
  else if c = 't' then some '\t'
  else if c = 'r' then some '\r'
  else none

/-- A literal that has been read: what it denotes, its own text, and the text after it. -/
structure Reading where
  value : List Char
  text : List Char
  rest : List Char

/-- Reads on to the closing quote. The literal was opened at `opened`, the characters left start
at `here`, and the two lists hold what came before, last character first. -/
def readBody (opened here : Position) (text value : List Char) :
    List Char → Except ScanError Reading
  | [] => .error (.unterminatedString opened)
  | c :: rest =>
    if c = '"' then .ok ⟨value.reverse, (c :: text).reverse, rest⟩
    else if c = '\\' then
      match rest with
      | [] => .error (.unterminatedString opened)
      | e :: rest =>
        match unescape? e with
        | some denoted =>
          readBody opened ((here.step c).step e) (e :: c :: text) (denoted :: value) rest
        | none => .error (.invalidEscape e here)
    else readBody opened (here.step c) (c :: text) (c :: value) rest

/-- Reading loses no character. -/
theorem readBody_text {opened here : Position} {text value cs : List Char} {r : Reading}
    (read : readBody opened here text value cs = .ok r) :
    r.text ++ r.rest = text.reverse ++ cs := by
  fun_induction readBody opened here text value cs with
  | case1 => contradiction
  | case2 => cases read; simp
  | case3 => contradiction
  | case4 _ _ _ _ _ _ _ _ ih => simpa using ih read
  | case5 => contradiction
  | case6 _ _ _ _ _ _ _ ih => simpa using ih read

theorem readBody_text_ne_nil {opened here : Position} {text value cs : List Char} {r : Reading}
    (read : readBody opened here text value cs = .ok r) : r.text ≠ [] := by
  fun_induction readBody opened here text value cs with
  | case1 => contradiction
  | case2 => cases read; simp
  | case3 => contradiction
  | case4 _ _ _ _ _ _ _ _ ih => exact ih read
  | case5 => contradiction
  | case6 _ _ _ _ _ _ _ ih => exact ih read

end Scriptlet.StringLiteral
