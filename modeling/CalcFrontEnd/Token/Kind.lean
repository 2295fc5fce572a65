/-
  TOKEN KINDS — the vocabulary of SimpCalc.

  1. **Data** — thirty kinds: three open classes (identifiers, numbers, string literals), eight reserved
     words, seventeen operators, the end of the file, and the marker that follows a diagnostic in a
     token stream.

  2. **Names** — `name` is what a token stream writes in its first column, `ofName?` reads it back.  The
     marker has a name but is no kind that a stream line can carry, so `ofName?` refuses it.

  3. **Spelling** — a reserved word and an operator have one fixed text, `spelling?`.  The list
     `operators` gives the order in which the scanner tries them: two characters before one.
-/

namespace CalcFrontEnd

/-- The kind of a token. -/
inductive Kind where
  | identifier
  | number
  | string
  | printWord
  | ifWord
  | elseWord
  | endifWord
  | sqrtWord
  | andWord
  | orWord
  | notWord
  | assign
  | raise
  | lessEqual
  | greaterEqual
  | notEqual
  | semicolon
  | colon
  | comma
  | leftParen
  | rightParen
  | plus
  | minus
  | multiply
  | divide
  | lessThan
  | equal
  | greaterThan
  | endOfFile
  | error
deriving DecidableEq, Repr, Inhabited

namespace Kind

/-- Every kind, the marker last. -/
def all : List Kind :=
  [identifier, number, string, printWord, ifWord, elseWord, endifWord, sqrtWord, andWord, orWord,
   notWord, assign, raise, lessEqual, greaterEqual, notEqual, semicolon, colon, comma, leftParen,
   rightParen, plus, minus, multiply, divide, lessThan, equal, greaterThan, endOfFile, error]

/-! ## Names -/

/-- The name of a kind in token streams and messages. -/
def name : Kind → String
  | identifier => "Identifier"
  | number => "Number"
  | string => "String"
  | printWord => "Print"
  | ifWord => "If"
  | elseWord => "Else"
  | endifWord => "Endif"
  | sqrtWord => "Sqrt"
  | andWord => "And"
  | orWord => "Or"
  | notWord => "Not"
  | assign => "Assign"
  | raise => "Raise"
  | lessEqual => "LTEqual"
  | greaterEqual => "GTEqual"
  | notEqual => "NotEqual"
  | semicolon => "Semicolon"
  | colon => "Colon"
  | comma => "Comma"
  | leftParen => "LeftParen"
  | rightParen => "RightParen"
  | plus => "Plus"
  | minus => "Minus"
  | multiply => "Multiply"
  | divide => "Divide"
  | lessThan => "LessThan"
  | equal => "Equal"
  | greaterThan => "GreaterThan"
  | endOfFile => "EndofFile"
  | error => "Error"

/-- The kind that a stream line names; the marker is not one. -/
def ofName? (name : String) : Option Kind :=
  all.find? fun kind => kind != error && kind.name == name

/-! ## Spelling -/

/-- The only text of a reserved word or an operator. -/
def spelling? : Kind → Option (List Char)
  | printWord => some ['P', 'R', 'I', 'N', 'T']
  | ifWord => some ['I', 'F']
  | elseWord => some ['E', 'L', 'S', 'E']
  | endifWord => some ['E', 'N', 'D', 'I', 'F']
  | sqrtWord => some ['S', 'Q', 'R', 'T']
  | andWord => some ['A', 'N', 'D']
  | orWord => some ['O', 'R']
  | notWord => some ['N', 'O', 'T']
  | assign => some [':', '=']
  | raise => some ['*', '*']
  | lessEqual => some ['<', '=']
  | greaterEqual => some ['>', '=']
  | notEqual => some ['!', '=']
  | semicolon => some [';']
  | colon => some [':']
  | comma => some [',']
  | leftParen => some ['(']
  | rightParen => some [')']
  | plus => some ['+']
  | minus => some ['-']
  | multiply => some ['*']
  | divide => some ['/']
  | lessThan => some ['<']
  | equal => some ['=']
  | greaterThan => some ['>']
  | identifier | number | string | endOfFile | error => none

/-- The reserved words. -/
def reserved : List Kind :=
  [printWord, ifWord, elseWord, endifWord, sqrtWord, andWord, orWord, notWord]

/-- The operators in the order they are tried: the two-character ones first, so that `<=` is never
    read as `<` and `=`. -/
def operators : List Kind :=
  [assign, raise, lessEqual, greaterEqual, notEqual, semicolon, colon, comma, leftParen, rightParen,
   plus, minus, multiply, divide, lessThan, equal, greaterThan]

/-- The kind of a whole word: a reserved word's own kind, else an identifier. -/
def ofWord (word : List Char) : Kind :=
  (reserved.find? fun kind => kind.spelling? == some word).getD identifier

/-- The first operator whose spelling starts the text, with that spelling. -/
def operatorAt? (text : List Char) : Option (Kind × List Char) :=
  operators.findSome? fun kind =>
    match kind.spelling? with
    | some spelling => if spelling.isPrefixOf text then some (kind, spelling) else none
    | none => none

/-! ## Small facts -/

theorem mem_all (kind : Kind) : kind ∈ all := by cases kind <;> decide

/-- Reading a kind's name gives the kind back. -/
theorem ofName?_name {kind : Kind} (h : kind ≠ error) : ofName? kind.name = some kind := by
  revert h
  cases kind <;> decide

theorem ofName?_error : ofName? error.name = none := by decide

/-- A name is read as the kind that has it, and never as the marker. -/
theorem ofName?_eq_some_iff {name : String} {kind : Kind} :
    ofName? name = some kind ↔ kind ≠ error ∧ kind.name = name := by
  constructor
  · intro h
    simpa using List.find?_some h
  · rintro ⟨hkind, rfl⟩
    exact ofName?_name hkind

end Kind

end CalcFrontEnd
