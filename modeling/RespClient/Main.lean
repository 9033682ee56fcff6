import RespClient.Shell.Program

namespace RespClient

open Simulation (World Level)

/-- A message of the log as it is printed; a prompt stays on its line. -/
def shown : Level × String → String
  | (.prompt, text) => text ++ " "
  | (level, text) => level.name ++ " " ++ text ++ "\n"

/-- Print what the shell has said, and clear its log. -/
def printLog (out : IO.FS.Stream) (w : World) : IO World := do
  for m in w.log do
    out.putStr (shown m)
  out.flush
  return { w with log := [] }

/-- What is left to say on the error stream. -/
def printExit (e : Shell.Exit) : IO UInt32 := do
  match e with
  | .stopped f => (← IO.getStderr).putStrLn ("Error: " ++ f.message)
  | .usage .displayHelp => (← IO.getStdout).putStr Shell.helpText
  | _ => pure ()
  return e.code.toUInt32

/-- Read and run lines until the shell ends. -/
partial def readLines (w : World) (t : Shell.Target) : IO UInt32 := do
  let out ← IO.getStdout
  let w ← printLog out (Shell.prompt w t)
  let line ← (← IO.getStdin).getLine
  let (w, e) :=
    if line.isEmpty then
      let (w, e) := Shell.leave w t
      (w, some e)
    else Shell.takeLine w t line
  let w ← printLog out w
  match e with
  | some e => printExit e
  | none => readLines w t

end RespClient

/-- The shell on standard input and output. It reaches nodes only in memory, and knows of none of its own. -/
def main (args : List String) : IO UInt32 := do
  match RespClient.Shell.start {} [] args with
  | (w, .error e) =>
    let _ ← RespClient.printLog (← IO.getStdout) w
    RespClient.printExit e
  | (w, .ok t) => RespClient.readLines w t
