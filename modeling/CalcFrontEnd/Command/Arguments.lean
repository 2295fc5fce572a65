/-
  ARGUMENTS — from the words of a command line to a command.

  1. **Rule** — the first argument picks the command; `-V` and `--version` in its place ask for the version.
     Behind it come one path and options, in any order.  An option's value follows as the next
     argument or is attached: `-o F`, `-oF`, `-o=F`, `--output F`, `--output=F`.  An argument that
     starts with `-` and is not `-` alone is an option, also where a value is due.  Behind `--` every
     argument is a path.

  2. **Program** — `classify` says what one argument is, `pieces` goes through all of them, and
     `Invocation.ofArguments` puts the command together.  An option given twice, an unknown one, an
     empty path and a number of paths other than one are refused.
-/
import CalcFrontEnd.Command.Basic

namespace CalcFrontEnd

/-- What a command line asks for. -/
inductive Invocation where
  | version
  | command (command : Command)
deriving DecidableEq, Repr

namespace Arguments

/-- The options that a command takes. -/
inductive Key where
  | output
  | name
  | derivation
deriving DecidableEq, Repr

/-- The long name of an option. -/
def Key.long : Key → List Char
  | output => ['o', 'u', 't', 'p', 'u', 't']
  | name => ['n', 'a', 'm', 'e']
  | derivation => ['d', 'e', 'r', 'i', 'v', 'a', 't', 'i', 'o', 'n']

/-- The short name of an option, if it has one. -/
def Key.short? : Key → Option Char
  | output => some 'o'
  | name | derivation => none

/-- Whether an option takes a value. -/
def Key.takesValue : Key → Bool
  | output | name => true
  | derivation => false

/-- What one argument is. -/
inductive Form where
  | path
  | flag (key : Key)
  | attached (key : Key) (value : List Char)
  | awaiting (key : Key)
  | unknown
deriving DecidableEq, Repr

/-- What one argument is to a command that takes the given options. -/
def classify (keys : List Key) (argument : List Char) : Form :=
  match argument with
  | '-' :: '-' :: text =>
    match keys.find? fun key => key.long == text.takeWhile (· != '=') with
    | none => .unknown
    | some key =>
      match key.takesValue, text.dropWhile (· != '=') with
      | true, [] => .awaiting key
      | true, _ :: value => .attached key value
      | false, [] => .flag key
      | false, _ :: _ => .unknown
  | '-' :: c :: text =>
    match keys.find? fun key => key.short? == some c with
    | none => .unknown
    | some key =>
      match text with
      | [] => .awaiting key
      | d :: value => .attached key (if d = '=' then value else text)
  | _ => .path

/-- A path or an option of a command line; a flag has no value. -/
inductive Piece where
  | path (text : List Char)
  | option (key : Key) (value : Option (List Char))
deriving DecidableEq, Repr

/-- Whether an argument is read as an option. -/
def isOption : List Char → Bool
  | '-' :: _ :: _ => true
  | _ => false

/-- The paths and options of a command's arguments. -/
def pieces (keys : List Key) : List (List Char) → Option (List Piece)
  | [] => some []
  | argument :: arguments =>
    if argument = ['-', '-'] then some (arguments.map .path)
    else match classify keys argument with
      | .path => (pieces keys arguments).map (.path argument :: ·)
      | .flag key => (pieces keys arguments).map (.option key none :: ·)
      | .attached key value => (pieces keys arguments).map (.option key (some value) :: ·)
      | .awaiting key =>
        match arguments with
        | [] => none
        | value :: arguments =>
          if isOption value then none
          else (pieces keys arguments).map (.option key (some value) :: ·)
      | .unknown => none

/-- The one path of a command line, if it is not empty. -/
def path? (pieces : List Piece) : Option String :=
  match pieces.filterMap fun | .path text => some text | .option _ _ => none with
  | [text] => if text = [] then none else some (String.ofList text)
  | _ => none

/-- What is given for an option, in the order of the command line. -/
def given (key : Key) (pieces : List Piece) : List (Option (List Char)) :=
  pieces.filterMap fun
    | .path _ => none
    | .option other value => if other = key then some value else none

/-- The value of an option that may be given once; `none` if it is given more often. -/
def value? (key : Key) (pieces : List Piece) : Option (Option String) :=
  match given key pieces with
  | [] => some none
  | [value] => some (value.map String.ofList)
  | _ => none

/-- The path given for an option, which may not be empty. -/
def pathValue? (key : Key) (pieces : List Piece) : Option (Option String) :=
  match value? key pieces with
  | some (some "") => none
  | value => value

/-- Whether a flag is given; `none` if it is given more than once. -/
def flag? (key : Key) (pieces : List Piece) : Option Bool :=
  match given key pieces with
  | [] => some false
  | [_] => some true
  | _ => none

/-- The command of the given name with its arguments. -/
def command? (name : String) (arguments : List (List Char)) : Option Command :=
  if name = "scan" then do
    let pieces ← pieces [.output] arguments
    return .scan (← path? pieces) (← pathValue? .output pieces)
  else if name = "parse" then do
    let pieces ← pieces [.output, .name] arguments
    return .parse (← path? pieces) (← value? .name pieces) (← pathValue? .output pieces)
  else if name = "check" then do
    let pieces ← pieces [.derivation] arguments
    return .check (← path? pieces) (← flag? .derivation pieces)
  else none

/-- Whether an argument in place of the command's name asks for the version. -/
def asksVersion (argument : String) : Bool :=
  argument == "--version" || ['-', 'V'].isPrefixOf argument.toList

end Arguments

/-- What the arguments of a command line ask for; `none` if they cannot be understood. -/
def Invocation.ofArguments : List String → Option Invocation
  | [] => none
  | first :: arguments =>
    if Arguments.asksVersion first then some .version
    else (Arguments.command? first (arguments.map String.toList)).map .command

/-- The answer to a question for the version. -/
def versionReport : Report := ⟨"simpcalc 0.1.0\n", "", Report.valid⟩

end CalcFrontEnd
