/-
  Custody.Main — the command line.
-/
import Custody.Command.Run

/-- Prints what the arguments ask for, and ends with its exit code. -/
def main (args : List String) : IO UInt32 := do
  match Custody.Command.execute args with
  | .error _ => do
    (← IO.getStderr).putStr "error: a handle was misused\n"
    return 101
  | .ok outcome => do
    (← IO.getStdout).putStr outcome.output
    (← IO.getStderr).putStr outcome.failure
    return outcome.exit
