import TsToPhp.Command.Run
import TsToPhp.FileSystem.Disk

/-! The program on the command line. -/

def main (args : List String) : IO UInt32 := do
  let isTerminal ← (← IO.getStderr).isTty
  let done ← TsToPhp.runProgram isTerminal args
  IO.print done.stdout
  IO.eprint done.stderr
  return done.status.toUInt32
