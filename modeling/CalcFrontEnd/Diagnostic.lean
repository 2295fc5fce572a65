/-
  DIAGNOSTICS — what a reader is told about a fault, whatever found it.

  1. **Data** — a `Diagnostic` has a name for the sort of fault, the one-line message, the line it
     points at and, for most faults, a tip.

  2. **Program** — `display file source` sets it against the source line it points at:

         Error: IllegalCharacter (unexpected `@z`)
         -> prog.txt
           |
         2 | y := @z;
           |

     The bars stand one column behind the line number's right edge.  The source line is shown without
     the blanks around it; a diagnostic that points past the text has only the first bar.
-/
import CalcFrontEnd.Text.Blank
import CalcFrontEnd.Text.Line

namespace CalcFrontEnd

/-- A fault as it is reported. -/
structure Diagnostic where
  name : String
  message : String
  line : Nat
  tip : Option String
deriving DecidableEq, Repr

namespace Diagnostic

/-- The title line: the name, and the tip in parentheses if there is one. -/
def title (d : Diagnostic) : String :=
  match d.tip with
  | none => "Error: " ++ d.name
  | some tip => "Error: " ++ d.name ++ " (" ++ tip ++ ")"

/-- A bar that stands below the bar of a numbered line. -/
def bar (number : String) : String :=
  String.ofList (List.replicate (number.length + 1) ' ') ++ "|"

/-- The lines of a diagnostic set against the source text. -/
def displayLines (d : Diagnostic) (file source : String) : List String :=
  let number := toString d.line
  let heading := [d.title, "-> " ++ file, bar number]
  match Text.lineAt? source.toList d.line with
  | none => heading
  | some text => heading ++ [number ++ " | " ++ String.ofList (Text.trim text), bar number]

/-- A diagnostic set against the source text. -/
def display (d : Diagnostic) (file source : String) : String :=
  "\n".intercalate (d.displayLines file source)

end Diagnostic

end CalcFrontEnd
