/-
  COMMANDS ON A DISK — read the input, perform the command, write the output.

  1. **Order** — the input is read first, then all the work is done, and the output file is written last.
     A path that cannot be read or written is all that is reported then, and the disk stays as it was.

  2. **Redirection** — with an output path, what would go to standard output goes to that file instead;
     standard error and the exit status are the same.

  3. **Standard output takes everything** — a report that goes there is taken to arrive as a whole.  That
     writing to it fails as well (a closed pipe, a full device behind it) is left out: the program
     would say so on standard error and exit like a command that cannot write its output file.
-/
import CalcFrontEnd.Command.Basic
import CalcFrontEnd.Disk.Basic

namespace CalcFrontEnd.Command

/-- The report of a command that could not read or write a path. -/
def refused (verb path reason : String) : Report :=
  ⟨"", "failed to " ++ verb ++ " " ++ path ++ ": " ++ reason ++ "\n", Report.unreachable⟩

/-- Runs a command: its report and the disk it leaves. -/
def run (command : Command) (disk : Disk) : Report × Disk :=
  match disk.read command.input with
  | .error refusal => (refused "read" command.input refusal.reason, disk)
  | .ok text =>
    let report := command.perform text
    match command.output? with
    | none => (report, disk)
    | some path =>
      match disk.write path report.stdout with
      | .error refusal => (refused "write" path refusal.reason, disk)
      | .ok written => ({ report with stdout := "" }, written)

end CalcFrontEnd.Command
