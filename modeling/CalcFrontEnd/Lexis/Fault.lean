/-
  LEXICAL ERRORS — text that is no token.

  Three things can go wrong, and each carries the text it is about.  The text appears only in the tip,
  never in the message.  Lexical errors are recoverable: the scanner goes on behind the span.
-/
import CalcFrontEnd.Diagnostic

namespace CalcFrontEnd

/-- What can be wrong with a stretch of source text. -/
inductive LexicalFault where
  /-- A string literal that its line ends before a quote closes it. -/
  | unterminatedString
  /-- A number whose fraction or exponent has no digit. -/
  | invalidNumber
  /-- A character, or two, that start no token. -/
  | illegalCharacter
deriving DecidableEq, Repr

namespace LexicalFault

def name : LexicalFault → String
  | unterminatedString => "UnterminatedString"
  | invalidNumber => "InvalidNumberFormat"
  | illegalCharacter => "IllegalCharacter"

def summary : LexicalFault → String
  | unterminatedString => "Unterminated string"
  | invalidNumber => "Invalid number format"
  | illegalCharacter => "Illegal character/character sequence"

/-- The advice for a fault in the given text. -/
def tip (text : String) : LexicalFault → String
  | unterminatedString => "string `" ++ text ++ "` must be closed on the line it starts"
  | invalidNumber =>
    "`" ++ text ++ "` is not a number, a fraction or exponent needs at least one digit"
  | illegalCharacter => "unexpected `" ++ text ++ "`"

end LexicalFault

/-- A fault in a stretch of source text. -/
structure LexicalError where
  fault : LexicalFault
  text : String
  line : Nat
deriving DecidableEq, Repr

namespace LexicalError

/-- The one-line message. -/
def message (e : LexicalError) : String :=
  "Lexical Error: " ++ e.fault.summary ++ " (Error at Line " ++ toString e.line ++ ")"

/-- The error as it is reported. -/
def diagnostic (e : LexicalError) : Diagnostic where
  name := e.fault.name
  message := e.message
  line := e.line
  tip := some (e.fault.tip e.text)

end LexicalError

end CalcFrontEnd
