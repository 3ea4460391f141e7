import QueryGate.Console.Dialog

/-!
# The program

Reads the arguments, the configuration and the input, and prints what the dialog
answers. Everything that is decided is decided elsewhere.
-/

namespace QueryGate.Console

/-- Reads the file of an invocation's configuration, if it can be read. -/
def readConfig (invocation : Invocation) : IO (Option ByteArray) :=
  match invocation.config with
  | none => return none
  | some path => do
      try
        return some (← IO.FS.readBinFile path)
      catch _ => return none

/-- Answers the lines of the input until it ends or a line ends the dialog. A
terminal is prompted for each line. -/
partial def converse (input output : IO.FS.Stream) (dialog : Dialog) : IO Unit := do
  if ← input.isTty then
    output.putStr s!"nql[{dialog.entity}]> "
    output.flush
  let line ← input.getLine
  if line.isEmpty then return
  let reply := dialog.reply line
  output.putStr reply.output
  output.flush
  match reply.next with
  | some dialog => converse input output dialog
  | none => return

/-- Carries out an invocation and gives the exit code. -/
def Invocation.execute (invocation : Invocation) : IO UInt32 := do
  let output ← IO.getStdout
  output.putStr invocation.notice
  match invocation.dialog (← readConfig invocation) with
  | .error failure =>
      (← IO.getStderr).putStr failure.message
      return 1
  | .ok dialog =>
      match invocation.query with
      | some query => output.putStr (dialog.answerQuery query)
      | none =>
          output.putStr dialog.greeting
          converse (← IO.getStdin) output dialog
      return 0

end QueryGate.Console

open QueryGate.Console

/-- The program. -/
def main (arguments : List String) : IO UInt32 := do
  match Command.ofArguments? arguments with
  | none =>
      (← IO.getStderr).putStr usageText
      return 2
  | some .help =>
      (← IO.getStdout).putStr usageText
      return 0
  | some .version =>
      (← IO.getStdout).putStr versionText
      return 0
  | some (.serve invocation) => invocation.execute
