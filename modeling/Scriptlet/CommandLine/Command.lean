import Scriptlet.CommandLine.Arguments
import Scriptlet.Definition
import Scriptlet.Json.Read
import Scriptlet.Json.Write
import Scriptlet.Program
import Scriptlet.Tree.OfJson
import Scriptlet.Tree.ToJson

/-! The commands. They see the world as a function from file names to contents, and the text that
is entered as bytes. -/
namespace Scriptlet.CommandLine

def Task.file? : Task → Option String
  | run file | format file | showTree file _ _ | runTree file _ => some file
  | repl => none

/-- What a finished command leaves behind: its exit status and what it has written. -/
structure Outcome where
  status : Nat
  output : String
  errors : String

inductive CommandError where
  | input (name reason : String)
  | json (e : Json.TextError)
  | tree (e : TreeError)
  | definition (written : String)
  | program (e : ProgramError)

def CommandError.message : CommandError → String
  | input name reason => "I/O error on " ++ name ++ ": " ++ reason
  | json e => "Invalid syntax tree: " ++ e.message
  | tree e => "Invalid syntax tree: " ++ e.message
  | definition written => Definition.invalidMessage written
  | program e => e.message

/-- The contents of files, or why they cannot be read. -/
abbrev Files := String → Except String ByteArray

/-- A text from bytes. -/
def decode (name : String) (bytes : ByteArray) : Except CommandError String :=
  match String.fromUTF8? bytes with
  | some text => .ok text
  | none => .error (.input name "stream did not contain valid UTF-8")

def readFile (files : Files) (name : String) : Except CommandError String :=
  match files name with
  | .ok bytes => decode name bytes
  | .error reason => .error (.input name reason)

/-- Binds the globals that are given from outside, in their order. -/
def define (state : Interpreter) : List String → Except CommandError Interpreter
  | [] => .ok state
  | text :: rest =>
    match Definition.read? text with
    | some definition => define (state.define definition.name definition.value) rest
    | none => .error (.definition text)

/-- The interpreter that an invocation starts with. -/
def Invocation.interpreter (invocation : Invocation) : Except CommandError Interpreter :=
  define (.new invocation.limits) invocation.definitions

/-- The line that shows the value of a program; there is none for `unit`. -/
def showValue : Value → String
  | .unit => ""
  | value => value.render ++ "\n"

def runSource (invocation : Invocation) (files : Files) (file : String) :
    Except CommandError String := do
  let source ← readFile files file
  let state ← invocation.interpreter
  return showValue (← (state.run source).1.mapError .program)

def formatSource (invocation : Invocation) (files : Files) (file : String) :
    Except CommandError String := do
  let source ← readFile files file
  let root ← (parseSource invocation.limits.parsing source).mapError .program
  return root.renderProgram

def showTree (invocation : Invocation) (files : Files) (file discriminant : String)
    (compact : Bool) : Except CommandError String := do
  let source ← readFile files file
  let root ← (parseSource invocation.limits.parsing source).mapError .program
  let value ← (root.toJson discriminant).mapError .tree
  return value.render (if compact then .compact else .indented) ++ "\n"

def runTree (invocation : Invocation) (files : Files) (file discriminant : String) :
    Except CommandError String := do
  let text ← readFile files file
  let value ← (Json.read text).mapError .json
  let root ← (Stmt.ofJson discriminant value).mapError .tree
  let state ← invocation.interpreter
  return showValue (← (state.interpret root).1.mapError fun e => .program (.execution e))

/-- What is shown before the first line is read. -/
def greeting : String :=
  "Welcome to the treewalk REPL!\nEOF to exit. (Ctrl+D on *nix, Ctrl+Z on Windows)\n"

def prompt : String := "> "

/-- Runs a line and answers it. -/
def answer (state : Interpreter) (line : String) : String × Interpreter :=
  let (result, after) := state.run (Text.trim line)
  match result with
  | .ok value => (showValue value, after)
  | .error e => ("Error: " ++ e.message ++ "\n", after)

/-- Splits bytes into lines, each with the newline that ends it. -/
def splitLines (line : List UInt8) : List UInt8 → List (List UInt8)
  | [] => if line.isEmpty then [] else [line.reverse]
  | byte :: rest =>
    if byte = 10 then (byte :: line).reverse :: splitLines [] rest
    else splitLines (byte :: line) rest

/-- Answers lines until they end or one of them is no text. -/
def answerAll (state : Interpreter) (output : String) : List (List UInt8) → Outcome
  | [] => ⟨0, output ++ prompt, ""⟩
  | line :: rest =>
    match decode "<stdin>" ⟨line.toArray⟩ with
    | .error e => ⟨1, output ++ prompt, e.message ++ "\n"⟩
    | .ok text =>
      let (reply, after) := answer state text
      answerAll after (output ++ prompt ++ reply) rest

/-- The outcome of a command that writes all at once or fails. -/
def Outcome.ofResult : Except CommandError String → Outcome
  | .ok output => ⟨0, output, ""⟩
  | .error e => ⟨1, "", e.message ++ "\n"⟩

def Invocation.perform (invocation : Invocation) (files : Files) (entered : ByteArray) :
    Outcome :=
  match invocation.task with
  | .run file => .ofResult (runSource invocation files file)
  | .format file => .ofResult (formatSource invocation files file)
  | .showTree file discriminant compact =>
    .ofResult (showTree invocation files file discriminant compact)
  | .runTree file discriminant => .ofResult (runTree invocation files file discriminant)
  | .repl =>
    match invocation.interpreter with
    | .error e => ⟨1, greeting, e.message ++ "\n"⟩
    | .ok state => answerAll state greeting (splitLines [] entered.toList)

/-- The outcome for arguments that are refused. -/
def refusal : Outcome := ⟨2, "", "error: invalid arguments\n"⟩

/-- Carries out what the arguments ask for. -/
def perform (arguments : List String) (files : Files) (entered : ByteArray) : Outcome :=
  match readArguments arguments with
  | some invocation => invocation.perform files entered
  | none => refusal

end Scriptlet.CommandLine
