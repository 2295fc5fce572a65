/-
  THE COMMAND LINE — commands on the files of the machine.

  Everything that a command says is decided by `Invocation.ofArguments` and `Command.perform`; here a
  file is read, the report is printed, or its text is written to the output file.
-/
import CalcFrontEnd.Command.Arguments
import CalcFrontEnd.Command.Run

namespace CalcFrontEnd

/-- The reason of a failed system call as it is reported. -/
def failureReason (failure : IO.Error) : String :=
  match failure with
  | .noFileOrDirectory .. => Refusal.notFound.reason
  | .inappropriateType _ code _ =>
    -- the system's number for it comes with either sign
    if code = 20 ∨ 0 - code = 20 then Refusal.notDirectory.reason else Refusal.isDirectory.reason
  | other => toString other

/-- Says a report and gives its exit status. -/
def sayReport (report : Report) : IO UInt32 := do
  let out ← IO.getStdout
  let err ← IO.getStderr
  err.putStr report.stderr
  out.putStr report.stdout
  out.flush
  return report.status.toUInt32

/-- Runs a command on the files of the machine. -/
def runOnFiles (command : Command) : IO UInt32 := do
  match ← (IO.FS.readBinFile command.input).toBaseIO with
  | .error failure => sayReport (Command.refused "read" command.input (failureReason failure))
  | .ok bytes =>
    match String.fromUTF8? bytes with
    | none => sayReport (Command.refused "read" command.input Refusal.notText.reason)
    | some text =>
      let report := command.perform text
      match command.output? with
      | none => sayReport report
      | some path =>
        match ← (IO.FS.writeFile path report.stdout).toBaseIO with
        | .error failure => sayReport (Command.refused "write" path (failureReason failure))
        | .ok () => sayReport { report with stdout := "" }

/-- What is said about a command line that cannot be understood. -/
def usage : String :=
  "usage: simpcalc scan INPUT [-o FILE] | parse TOKENS [--name NAME] [-o FILE] | " ++
    "check INPUT [--derivation]"

end CalcFrontEnd

/-- Runs the command that the arguments ask for. -/
def main (arguments : List String) : IO UInt32 := do
  match CalcFrontEnd.Invocation.ofArguments arguments with
  | none =>
    IO.eprintln CalcFrontEnd.usage
    return CalcFrontEnd.Report.misused.toUInt32
  | some .version => CalcFrontEnd.sayReport CalcFrontEnd.versionReport
  | some (.command command) => CalcFrontEnd.runOnFiles command
