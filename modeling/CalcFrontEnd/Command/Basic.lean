/-
  COMMANDS — the three things that can be asked for, and what each of them says.

  1. **Data** — `scan` turns a source text into a token stream, `parse` recognizes a token stream, `check`
     does both at once.  `scan` and `parse` may send what they say into a file.

  2. **Program** — `perform` gives a command's `Report` on the text of its input: what goes to standard
     output and to standard error, and the exit status.  It touches no file.
-/
import CalcFrontEnd.Disk.Path
import CalcFrontEnd.FrontEnd

namespace CalcFrontEnd

/-- A command with its arguments; inputs and outputs are paths. -/
inductive Command where
  | scan (input : String) (output : Option String)
  | parse (input : String) (name : Option String) (output : Option String)
  | check (input : String) (derivation : Bool)
deriving DecidableEq, Repr

/-- What a command says and the status it exits with. -/
structure Report where
  stdout : String
  stderr : String
  status : Nat
deriving DecidableEq, Repr

/-! ## Exit status -/

namespace Report

/-- The status of a valid program. -/
def valid : Nat := 0

/-- The status of a command line that cannot be understood. -/
def misused : Nat := 2

/-- The status of a program that is not valid. -/
def invalid : Nat := 65

/-- The status when a file cannot be read or written. -/
def unreachable : Nat := 74

/-- The status that tells whether a program is valid. -/
def statusOf (isValid : Bool) : Nat := if isValid then valid else invalid

end Report

namespace Command

/-- The path that a command reads. -/
def input : Command → String
  | scan input _ => input
  | parse input _ _ => input
  | check input _ => input

/-- The path that a command writes what it says to. -/
def output? : Command → Option String
  | scan _ output => output
  | parse _ _ output => output
  | check _ _ => none

/-- The same command without an output path. -/
def withoutOutput : Command → Command
  | scan input _ => scan input none
  | parse input name _ => parse input name none
  | check input derivation => check input derivation

/-! ## What the commands say -/

/-- The lines of a report as a text: each ends in a newline. -/
def reportText (outcome : Outcome) (name : String) : String :=
  "\n".intercalate (outcome.report name) ++ "\n"

/-- What `check` says about the lexical errors: each against its source line, and an empty line. -/
def errorText (errors : List LexicalError) (name source : String) : String :=
  String.join (errors.map fun error => error.diagnostic.display name source ++ "\n\n")

/-- The derivation record, one constituent a line. -/
def derivationText (derivations : List Derivation) : String :=
  String.join (derivations.map fun derivation => derivation.render ++ "\n")

/-- What a command says when its input holds the given text. -/
def perform (command : Command) (text : String) : Report :=
  match command with
  | scan _ _ => ⟨scanToStream text, "", Report.valid⟩
  | parse input name _ =>
    let outcome := recognizeStream text
    ⟨reportText outcome (name.getD (fileName input)), "", Report.statusOf outcome.isValid⟩
  | check input derivation =>
    let name := fileName input
    let (errors, outcome) := CalcFrontEnd.check text
    { stdout := reportText outcome name
      stderr := errorText errors name text ++
        (if derivation then derivationText outcome.derivations else "")
      status := Report.statusOf (errors.isEmpty && outcome.isValid) }

end Command

end CalcFrontEnd
