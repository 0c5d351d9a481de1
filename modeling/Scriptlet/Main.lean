import Scriptlet.CommandLine.Command

/-! The program. It reads what a command asks for and writes what the command leaves behind; lines
are answered one at a time while they are entered. -/
namespace Scriptlet.CommandLine

/-- A failure of the system in its own words. -/
def systemReason (e : IO.Error) : String :=
  match e with
  | .noFileOrDirectory _ _ _ => "No such file or directory (os error 2)"
  | .inappropriateType _ code details | .permissionDenied _ code details
  | .invalidArgument _ code details | .resourceExhausted _ code details =>
    details ++ " (os error " ++ toString code ++ ")"
  | other => toString other

/-- Reads on to the end of a line, which its newline belongs to. -/
partial def readLine (input : IO.FS.Stream) (line : ByteArray) : IO ByteArray := do
  let byte ← input.read 1
  if byte.isEmpty || byte.toList = [10] then return line ++ byte
  readLine input (line ++ byte)

/-- Answers lines as they are entered, until they end or one of them is no text. -/
partial def converse (state : Interpreter) : IO UInt32 := do
  (← IO.getStdout).putStr prompt
  (← IO.getStdout).flush
  let line ← readLine (← IO.getStdin) .empty
  if line.isEmpty then return 0
  match decode "<stdin>" line with
  | .error e =>
    (← IO.getStderr).putStr (e.message ++ "\n")
    return 1
  | .ok text =>
    let (reply, after) := answer state text
    (← IO.getStdout).putStr reply
    converse after

def report (outcome : Outcome) : IO UInt32 := do
  (← IO.getStdout).putStr outcome.output
  (← IO.getStderr).putStr outcome.errors
  return outcome.status.toUInt32

end Scriptlet.CommandLine

open Scriptlet.CommandLine in
def main (arguments : List String) : IO UInt32 := do
  match readArguments arguments with
  | none => report refusal
  | some invocation =>
    match invocation.task.file?, invocation.interpreter with
    | none, .ok state =>
      (← IO.getStdout).putStr greeting
      converse state
    | none, .error _ => report (invocation.perform (fun _ => .error "") .empty)
    | some file, _ =>
      let contents ← (IO.FS.readBinFile file).toBaseIO
      let files : Files := fun _ => contents.mapError systemReason
      report (invocation.perform files .empty)
