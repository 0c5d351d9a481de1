import Scriptlet.Limits
import Scriptlet.Number.Decimal
import Scriptlet.Tree.Kind

/-! The arguments of the command line. Some options may stand before or after the name of the
command; what stands after it replaces what stands before. Arguments that do not fit are refused
as a whole. -/
namespace Scriptlet.CommandLine

inductive CommandName where
  | run
  | repl
  | format
  | showTree
  | runTree
  deriving DecidableEq, Repr

def CommandName.ofText? (text : String) : Option CommandName :=
  if text = "run" then some .run
  else if text = "repl" then some .repl
  else if text = "fmt" then some .format
  else if text = "ast" then some .showTree
  else if text = "eval-ast" then some .runTree
  else none

def CommandName.takesFile (command : CommandName) : Bool := command ≠ .repl

inductive Flag where
  | define
  | parseLimit
  | evalLimit
  | discriminant
  | compact
  deriving DecidableEq, Repr

/-- The option called so that may stand before any command, or after the given one. -/
def Flag.ofText? (command : Option CommandName) (text : String) : Option Flag :=
  if text = "-D" ∨ text = "--define" then some .define
  else if text = "--parse-depth-limit" then some .parseLimit
  else if text = "--eval-depth-limit" then some .evalLimit
  else if text = "-d" ∨ text = "--discriminant" then
    if command = some .showTree ∨ command = some .runTree then some .discriminant else none
  else if text = "--compact" then
    if command = some .showTree then some .compact else none
  else none

def Flag.takesValue (flag : Flag) : Bool := flag ≠ .compact

inductive Word where
  /-- Two hyphens: only plain words follow. -/
  | separator
  /-- An option, perhaps with its value. -/
  | flag (name : String) (value : Option String)
  | plain (text : String)

/-- Takes an argument apart. A short option may be followed by its value at once, a long one by an
equals sign and its value; a single hyphen is a plain word. -/
def Word.ofText (text : String) : Word :=
  match text.toList with
  | ['-', '-'] => .separator
  | '-' :: '-' :: long =>
    let name := "--" ++ String.ofList (long.takeWhile (· ≠ '='))
    match long.dropWhile (· ≠ '=') with
    | [] => .flag name none
    | _ :: value => .flag name (some (String.ofList value))
  | '-' :: short :: rest =>
    let name := String.ofList ['-', short]
    match rest with
    | [] => .flag name none
    | '=' :: value => .flag name (some (String.ofList value))
    | value => .flag name (some (String.ofList value))
  | _ => .plain text

/-- A whole number below `2 ^ 64`, with an optional plus sign. -/
def readLimit? (text : String) : Option Nat :=
  let digits := match text.toList with
    | '+' :: rest => rest
    | cs => cs
  if digits.isEmpty || !digits.all Char.isDigit then none
  else
    let value := Decimal.natOfDigits digits
    if value < 0x10000000000000000 then some value else none

/-- What has been given on one side of the name of the command. -/
structure Given where
  definitions : List String := []
  parseLimit : Option Nat := none
  evalLimit : Option Nat := none
  discriminant : Option String := none
  compact : Bool := false
  file : Option String := none

namespace Given

/-- Sets what may be given only once. -/
def once (old : Option α) (new : α) : Option (Option α) :=
  if old.isSome then none else some (some new)

def add (given : Given) (flag : Flag) (value : String) : Option Given :=
  match flag with
  | .define => some { given with definitions := given.definitions ++ [value] }
  | .parseLimit => do
    return { given with parseLimit := ← once given.parseLimit (← readLimit? value) }
  | .evalLimit => do
    return { given with evalLimit := ← once given.evalLimit (← readLimit? value) }
  | .discriminant => do return { given with discriminant := ← once given.discriminant value }
  | .compact => if given.compact then none else some { given with compact := true }

/-- Adds a plain word. Only the file of a command is one, and it has a name. -/
def addWord (given : Given) (command : Option CommandName) (text : String) : Option Given := do
  let command ← command
  if command.takesFile && !text.isEmpty then
    return { given with file := ← once given.file text }
  else none

def addWords (given : Given) (command : Option CommandName) : List String → Option Given
  | [] => some given
  | text :: rest => do addWords (← given.addWord command text) command rest

end Given

/-- Reads the arguments on one side of the name of the command, and on the left side also the name
and what is left after it. An option that waits for its value takes the next argument if that does
not look like an option. -/
def readSide (command : Option CommandName) (given : Given) (waiting : Option Flag) :
    List String → Option (Given × Option (CommandName × List String))
  | [] => if waiting.isSome then none else some (given, none)
  | text :: rest =>
    match waiting with
    | some flag =>
      match Word.ofText text with
      | .plain value => do readSide command (← given.add flag value) none rest
      | _ => none
    | none =>
      match command, CommandName.ofText? text with
      | none, some name => some (given, some (name, rest))
      | _, _ =>
        match Word.ofText text with
        | .separator => do return (← given.addWords command rest, none)
        | .flag name value => do
          let flag ← Flag.ofText? command name
          match flag.takesValue, value with
          | true, some value => readSide command (← given.add flag value) none rest
          | true, none => readSide command given (some flag) rest
          | false, none => readSide command (← given.add flag "") none rest
          | false, some _ => none
        | .plain value => do readSide command (← given.addWord command value) none rest

inductive Task where
  | run (file : String)
  | repl
  | format (file : String)
  | showTree (file : String) (discriminant : String) (compact : Bool)
  | runTree (file : String) (discriminant : String)

/-- What is to be done, and under which definitions and limits. -/
structure Invocation where
  task : Task
  definitions : List String
  limits : Limits

/-- The task of a command and what has been given after its name. -/
def Task.ofGiven? (command : CommandName) (given : Given) : Option Task :=
  let discriminant := given.discriminant.getD Discriminant.standard
  match command, given.file with
  | .repl, _ => some .repl
  | .run, some file => some (.run file)
  | .format, some file => some (.format file)
  | .showTree, some file => some (.showTree file discriminant given.compact)
  | .runTree, some file => some (.runTree file discriminant)
  | _, none => none

/-- Reads the arguments; there is no result if they are refused. Without a command, lines are read
and run. -/
def readArguments (arguments : List String) : Option Invocation := do
  let (left, command) ← readSide none {} none arguments
  let (name, right) ← (match command with
    | none => some (.repl, {})
    | some (name, rest) => (readSide (some name) {} none rest).map fun side => (name, side.1)
    : Option (CommandName × Given))
  let standard : Limits := {}
  return {
    task := ← Task.ofGiven? name right
    definitions := if right.definitions.isEmpty then left.definitions else right.definitions
    limits := {
      parsing := (right.parseLimit <|> left.parseLimit).getD standard.parsing
      evaluation := (right.evalLimit <|> left.evalLimit).getD standard.evaluation } }

end Scriptlet.CommandLine
