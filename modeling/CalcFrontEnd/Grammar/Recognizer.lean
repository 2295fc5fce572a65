/-
  THE RECOGNIZER — a token list checked against the grammar with one token of lookahead.

  1. **Data** — a `Recognizer` holds the tokens that are left, how many have been passed, the trace and
     the derivation record.  Behind the last token stands an endless supply of end tokens on that
     token's line.

  2. **Program** — `run` works off a stack of symbols.  A token symbol consumes the next token if it has
     that kind; a goal is replaced by the right-hand side that the next token picks; a remark goes to
     the trace; `complete` adds to the derivation record.  The first misfit ends the run.

  3. **Result** — an `Ending`: the recognizer where the run came to its end, and the fault if it did not
     get through.  What was logged and recorded before a fault stays.

  4. **No stored lookahead** — a program would keep the whole list with an index into it, and the next
     token beside that.  Here the index is the `position`, the tokens from there on are the `rest`, and
     the next token is read off that each time.  That the three are in step is not built in: it is the
     invariant `Reachable.rest_eq` of all states that operations lead to, and `Reachable.lookahead_eq`
     says that the next token is the one at the position.

  5. **Crux** — every step consumes a token or makes the stack lighter.  The token step is safe at the
     end of the list: there the lookahead is the end token, and only a symbol for that one passes.
-/
import CalcFrontEnd.Grammar.Goal
import CalcFrontEnd.Token.Basic

namespace CalcFrontEnd

/-- A token list in the course of being recognized. -/
structure Recognizer where
  /-- The tokens not yet passed. -/
  rest : List Token
  /-- How many tokens have been passed, those behind the list's end included. -/
  position : Nat
  /-- The line of the list's last token. -/
  lastLine : Nat
  /-- The trace so far. -/
  trace : Array Remark
  /-- The constituents finished so far, in the order they were finished. -/
  derivations : Array Derivation
deriving DecidableEq, Repr

namespace Recognizer

/-- The recognizer in front of a token list. -/
def ofTokens (tokens : List Token) : Recognizer where
  rest := tokens
  position := 0
  lastLine := (tokens.getLast?.map Token.line).getD 1
  trace := #[]
  derivations := #[]

/-- The next token; behind the list's end it is an end token on the last line. -/
def lookahead (s : Recognizer) : Token := s.rest.headD (.endOfFile s.lastLine)

/-- The line of the next token. -/
def line (s : Recognizer) : Nat := s.lookahead.line

/-- The error of a fault at the next token. -/
def error (s : Recognizer) (fault : ParseFault) : ParseError := ⟨fault, s.line⟩

/-- The recognizer behind the next token. -/
def advance (s : Recognizer) : Recognizer :=
  { s with rest := s.rest.tail, position := s.position + 1 }

/-- The recognizer with one more line of trace. -/
def log (s : Recognizer) (remark : Remark) : Recognizer := { s with trace := s.trace.push remark }

/-- The recognizer with one more finished constituent, which ends before the next token. -/
def record (s : Recognizer) (constituent : Constituent) (start : Nat) : Recognizer :=
  { s with derivations := s.derivations.push ⟨constituent, start, s.position⟩ }

/-- A remark comes last in the trace. -/
theorem toList_trace_log (s : Recognizer) (remark : Remark) :
    (s.log remark).trace.toList = s.trace.toList ++ [remark] := Array.toList_push

/-- A finished constituent comes last in the derivation record. -/
theorem toList_derivations_record (s : Recognizer) (constituent : Constituent) (start : Nat) :
    (s.record constituent start).derivations.toList =
      s.derivations.toList ++ [⟨constituent, start, s.position⟩] := Array.toList_push

/-! ## Runs -/

/-- How a run ends: where, and with which fault if it did not get through. -/
structure Ending where
  state : Recognizer
  fault : Option ParseFault
deriving DecidableEq, Repr

/-- The error that a run ends with. -/
def Ending.error? (ending : Ending) : Option ParseError := ending.fault.map ending.state.error

/-- Behind the end of the list only a symbol for the end token fits. -/
theorem kind_lookahead_of_rest_eq_nil {s : Recognizer} (h : s.rest = []) :
    s.lookahead.kind = .endOfFile := by
  simp [lookahead, h, Token.endOfFile]

/-- Works off a stack of symbols. -/
def run (stack : List Symbol) (s : Recognizer) : Ending :=
  match stack with
  | [] => ⟨s, none⟩
  | .token kind :: stack =>
    if s.lookahead.kind = kind then run stack s.advance else ⟨s, some (.expectedToken kind)⟩
  | .goal g :: stack =>
    match _h : g.expand s.lookahead.kind with
    | .ok symbols => run (symbols ++ (g.completion s.position ++ stack)) s
    | .error fault => ⟨s, some fault⟩
  | .remark remark :: stack => run stack (s.log remark)
  | .complete constituent start :: stack => run stack (s.record constituent start)
termination_by (s.rest.length, weight stack)
decreasing_by
  · rename_i hkind
    cases hrest : s.rest with
    | nil =>
      -- behind the list's end: the symbol was the end token's, so the stack gets lighter
      rw [kind_lookahead_of_rest_eq_nil hrest] at hkind
      subst hkind
      simp [advance, hrest, weight, Prod.lex_def]
    | cons token tokens => simp [advance, hrest, Prod.lex_def]
  · exact Prod.Lex.right _ (weight_expand _h s.position stack)
  · simp [log, weight, Prod.lex_def]
  · simp [record, weight, Prod.lex_def]

/-- Recognizes a token of the given kind. -/
def expect (s : Recognizer) (kind : Kind) : Ending := s.run [.token kind]

/-- Recognizes one goal of the grammar. -/
def recognize (s : Recognizer) (goal : Goal) : Ending := s.run [.goal goal]

end Recognizer

end CalcFrontEnd
