/-
  OUTCOMES — what comes of recognizing a whole token list.

  A program is a block and the end of the file, with nothing but a second end token behind it.  The
  outcome keeps the trace and the derivation record up to the end or the first error; its `report` is
  the trace followed by the verdict.
-/
import CalcFrontEnd.Grammar.Recognizer

namespace CalcFrontEnd

/-- What recognizing a token list gives. -/
structure Outcome where
  trace : List Remark
  derivations : List Derivation
  failure : Option ParseError
deriving DecidableEq, Repr

namespace Outcome

/-- Whether the token list is a program. -/
def isValid (outcome : Outcome) : Bool := outcome.failure.isNone

/-- The last line of the report: that the named program is valid, or the error's message. -/
def verdict (outcome : Outcome) (name : String) : String :=
  match outcome.failure with
  | none => name ++ " is a valid SimpCalc program"
  | some error => error.message

/-- The lines of the report: the trace and the verdict. -/
def report (outcome : Outcome) (name : String) : List String :=
  outcome.trace.map Remark.text ++ [outcome.verdict name]

/-- The outcome of a token list that could not be loaded. -/
def unloadable (error : ParseError) : Outcome := ⟨[], [], some error⟩

end Outcome

/-- The error that a run for a whole program leaves: its own, or that of tokens behind the program. -/
def Recognizer.Ending.programError? (ending : Recognizer.Ending) : Option ParseError :=
  match ending.error? with
  | some error => some error
  | none =>
    if ending.state.lookahead.kind = .endOfFile then none
    else some (ending.state.error .trailingTokens)

/-- Recognizes a whole token list. -/
def Outcome.ofTokens (tokens : List Token) : Outcome :=
  let ending := (Recognizer.ofTokens tokens).recognize .program
  ⟨ending.state.trace.toList, ending.state.derivations.toList, ending.programError?⟩

end CalcFrontEnd
