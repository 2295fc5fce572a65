/-
  PARSE ERRORS — why a token list is no program, or a token stream no token list.

  A cause says what was missing or too much, the error adds the line of the token at which the reading
  stopped.  The first error ends the reading.
-/
import CalcFrontEnd.Diagnostic
import CalcFrontEnd.Token.Kind

namespace CalcFrontEnd

/-- What stopped the recognizer or the loader of a token stream. -/
inductive ParseFault where
  /-- A token of this one kind had to come next. -/
  | expectedToken (kind : Kind)
  /-- A statement had to come next. -/
  | statementExpected
  /-- The block of an IF is followed neither by ENDIF nor by ELSE. -/
  | incompleteIf
  /-- An operand had to come next. -/
  | symbolExpected
  /-- The first side of a comparison is followed by no relational operator. -/
  | missingRelationalOperator
  /-- A relational operator had to come next. -/
  | relationalOperatorExpected
  /-- Tokens follow the end of the program. -/
  | trailingTokens
  /-- A line of a token stream names no kind. -/
  | unknownTokenKind (name : String)
deriving DecidableEq, Repr

namespace ParseFault

def name : ParseFault → String
  | expectedToken _ => "ExpectedToken"
  | statementExpected => "StatementExpected"
  | incompleteIf => "IncompleteIf"
  | symbolExpected => "SymbolExpected"
  | missingRelationalOperator => "MissingRelationalOperator"
  | relationalOperatorExpected => "RelationalOperatorExpected"
  | trailingTokens => "TrailingTokens"
  | unknownTokenKind _ => "UnknownTokenKind"

def summary : ParseFault → String
  | expectedToken kind => kind.name ++ " expected"
  | statementExpected => "Statement expected"
  | incompleteIf => "Incomplete if Statement"
  | symbolExpected => "Symbol expected"
  | missingRelationalOperator => "Missing relational operator"
  | relationalOperatorExpected => "Relational operator expected"
  | trailingTokens => "Unexpected tokens after program end"
  | unknownTokenKind name => "Unrecognised token kind `" ++ name ++ "`"

/-- The advice that goes with a fault, where there is any. -/
def tip : ParseFault → Option String
  | expectedToken .semicolon => some "did you miss a semicolon?"
  | expectedToken .rightParen => some "check for an unbalanced parenthesis"
  | expectedToken .endOfFile => some "a statement must start with an identifier, PRINT or IF"
  | expectedToken _ => none
  | statementExpected => none
  | incompleteIf => some "an IF block must be closed with `ENDIF;` or continued with ELSE"
  | symbolExpected =>
    some "expected an identifier, a number, SQRT(...) or a parenthesised expression"
  | missingRelationalOperator | relationalOperatorExpected =>
    some "a condition compares two expressions with one of < = > <= >= !="
  | trailingTokens => none
  | unknownTokenKind name => some ("`" ++ name ++ "` is not a SimpCalc token kind")

end ParseFault

/-- A fault and the line it was met on. -/
structure ParseError where
  fault : ParseFault
  line : Nat
deriving DecidableEq, Repr

namespace ParseError

/-- The one-line message. -/
def message (e : ParseError) : String :=
  "Parse Error: " ++ e.fault.summary ++ ". (Error at Line " ++ toString e.line ++ ")"

/-- The error as it is reported. -/
def diagnostic (e : ParseError) : Diagnostic where
  name := e.fault.name
  message := e.message
  line := e.line
  tip := e.fault.tip

end ParseError

end CalcFrontEnd
