/-
  THE GRAMMAR OF SIMPCALC — which constituents there are and how the next token picks a production.

      Program    → Block EndofFile
      Block      → Statement Block | ε
      Statement  → Assignment | Print | Conditional
      Assignment → Identifier := Expr ;
      Print      → PRINT ( Arg ArgList ) ;
      Conditional → IF Condition : Block IfTail
      IfTail     → ENDIF ; | ELSE Block ENDIF ;
      ArgList    → , Arg ArgList | ε            Arg    → String | Expr
      Expr       → Term TermList                TermList   → (+|-) Term TermList | ε
      Term       → Factor FactorList            FactorList → (*|/) Factor FactorList | ε
      Factor     → Atom AtomList                AtomList   → ** Atom AtomList | ε
      Atom       → - Value | Value
      Value      → Identifier | Number | SQRT ( Expr ) | ( Expr )
      Condition  → Expr Comparison              Comparison → RelOp Expr
      RelOp      → < | = | > | <= | >= | !=

  1. **Data** — a `Goal` is a left-hand side, a `Symbol` an element of a right-hand side.  Besides tokens
     and goals a right-hand side holds two sorts of action: a `remark` for the trace, and `complete`,
     which notes down a finished constituent together with the index of its first token.

  2. **Program** — `Goal.expand` gives the right-hand side that the kind of the next token picks, or the
     fault if none fits.  One token is always enough.

  3. **Crux** — expanding a goal makes the `weight` of a stack of symbols smaller (`weight_expand`).  The
     weight counts the work up to the next token that has to be consumed, so it bounds the number of
     steps a recognizer can take without consuming anything.
-/
import CalcFrontEnd.Grammar.Fault

namespace CalcFrontEnd

/-! ## What a recognizer reports -/

/-- The constituents that a recognizer records. -/
inductive Constituent where
  | statement
  | condition
  | expr
  | term
  | factor
  | atom
  | value
deriving DecidableEq, Repr

/-- The name of a constituent in the derivation record. -/
def Constituent.name : Constituent → String
  | statement => "Statement"
  | condition => "Condition"
  | expr => "Expr"
  | term => "Term"
  | factor => "Factor"
  | atom => "Atom"
  | value => "Value"

/-- A finished constituent and the half-open range of token indices it covers. -/
structure Derivation where
  constituent : Constituent
  start : Nat
  stop : Nat
deriving DecidableEq, Repr

/-- The line of the derivation record, such as `Expr [2, 5)`. -/
def Derivation.render (d : Derivation) : String :=
  d.constituent.name ++ " [" ++ toString d.start ++ ", " ++ toString d.stop ++ ")"

/-- A line of the trace. -/
inductive Remark where
  | assignmentRecognized
  | printRecognized
  | ifBegins
  | ifEnds
  /-- A line of someone else's. -/
  | note (text : String)
deriving DecidableEq, Repr

/-- The text of a trace line. -/
def Remark.text : Remark → String
  | assignmentRecognized => "Assignment Statement Recognized"
  | printRecognized => "Print Statement Recognized"
  | ifBegins => "If Statement Begins"
  | ifEnds => "If Statement Ends"
  | note text => text

/-! ## Goals and symbols -/

/-- A left-hand side of the grammar. -/
inductive Goal where
  | program
  | block
  | statement
  | assignment
  | print
  | conditional
  | ifTail
  | argList
  | arg
  | expr
  | termList
  | term
  | factorList
  | factor
  | atomList
  | atom
  | value
  | condition
  | comparison
  | relOp
deriving DecidableEq, Repr

/-- An element of a right-hand side. -/
inductive Symbol where
  | token (kind : Kind)
  | goal (goal : Goal)
  | remark (remark : Remark)
  | complete (constituent : Constituent) (start : Nat)
deriving DecidableEq, Repr

/-! ## Classes of token kinds -/

namespace Kind

/-- The kinds that start a statement. -/
def statementStarts : List Kind := [identifier, printWord, ifWord]

/-- The operators that join terms. -/
def additive : List Kind := [plus, minus]

/-- The operators that join factors. -/
def multiplicative : List Kind := [multiply, divide]

/-- The operators that join the two sides of a comparison. -/
def relational : List Kind := [lessThan, equal, greaterThan, lessEqual, greaterEqual, notEqual]

end Kind

namespace Goal

/-- The right-hand side that a next token of kind `ahead` picks. -/
def expand (g : Goal) (ahead : Kind) : Except ParseFault (List Symbol) :=
  match g with
  | program => .ok [.goal .block, .token .endOfFile]
  | block =>
    if ahead ∈ Kind.statementStarts then .ok [.goal .statement, .goal .block] else .ok []
  | statement =>
    match ahead with
    | .identifier => .ok [.goal .assignment]
    | .printWord => .ok [.goal .print]
    | .ifWord => .ok [.goal .conditional]
    | _ => .error .statementExpected
  | assignment =>
    .ok [.token .identifier, .token .assign, .goal .expr, .token .semicolon,
      .remark .assignmentRecognized]
  | print =>
    .ok [.token .printWord, .token .leftParen, .goal .arg, .goal .argList, .token .rightParen,
      .token .semicolon, .remark .printRecognized]
  | conditional =>
    .ok [.token .ifWord, .remark .ifBegins, .goal .condition, .token .colon, .goal .block,
      .goal .ifTail, .remark .ifEnds]
  | ifTail =>
    match ahead with
    | .endifWord => .ok [.token .endifWord, .token .semicolon]
    | .elseWord => .ok [.token .elseWord, .goal .block, .token .endifWord, .token .semicolon]
    | _ => .error .incompleteIf
  | argList => if ahead = .comma then .ok [.token .comma, .goal .arg, .goal .argList] else .ok []
  | arg => if ahead = .string then .ok [.token .string] else .ok [.goal .expr]
  | expr => .ok [.goal .term, .goal .termList]
  | termList =>
    if ahead ∈ Kind.additive then .ok [.token ahead, .goal .term, .goal .termList] else .ok []
  | term => .ok [.goal .factor, .goal .factorList]
  | factorList =>
    if ahead ∈ Kind.multiplicative then .ok [.token ahead, .goal .factor, .goal .factorList]
    else .ok []
  | factor => .ok [.goal .atom, .goal .atomList]
  | atomList => if ahead = .raise then .ok [.token .raise, .goal .atom, .goal .atomList] else .ok []
  | atom => if ahead = .minus then .ok [.token .minus, .goal .value] else .ok [.goal .value]
  | value =>
    match ahead with
    | .identifier => .ok [.token .identifier]
    | .number => .ok [.token .number]
    | .sqrtWord => .ok [.token .sqrtWord, .token .leftParen, .goal .expr, .token .rightParen]
    | .leftParen => .ok [.token .leftParen, .goal .expr, .token .rightParen]
    | _ => .error .symbolExpected
  | condition => .ok [.goal .expr, .goal .comparison]
  | comparison =>
    if ahead ∈ Kind.relational then .ok [.goal .relOp, .goal .expr]
    else .error .missingRelationalOperator
  | relOp =>
    if ahead ∈ Kind.relational then .ok [.token ahead] else .error .relationalOperatorExpected

/-- The constituent that a goal is recorded as. -/
def constituent? : Goal → Option Constituent
  | statement => some .statement
  | condition => some .condition
  | expr => some .expr
  | term => some .term
  | factor => some .factor
  | atom => some .atom
  | value => some .value
  | _ => none

/-- The record that follows the right-hand side of a goal which starts at a token index. -/
def completion (g : Goal) (start : Nat) : List Symbol :=
  match g.constituent? with
  | some constituent => [.complete constituent start]
  | none => []

/-! ## The weight of a stack -/

/-- Whether a goal can be met without consuming a token of the list. -/
def mayBeEmpty : Goal → Bool
  | program | block | argList | termList | factorList | atomList => true
  | _ => false

/-- How far a goal is from its first token, counted in expansions. -/
def rank : Goal → Nat
  | program => 6
  | block => 4
  | statement => 3
  | assignment | print | conditional | ifTail | argList | termList | factorList | atomList => 2
  | arg | condition => 7
  | expr => 6
  | term => 5
  | factor => 4
  | atom | comparison => 3
  | value | relOp => 2

end Goal

/-- The work up to the next token that must come from the list. -/
def weight : List Symbol → Nat
  | [] => 0
  | .token kind :: stack => if kind = .endOfFile then 1 + weight stack else 1
  | .goal g :: stack => if g.mayBeEmpty then g.rank + weight stack else g.rank
  | .remark _ :: stack => 1 + weight stack
  | .complete _ _ :: stack => 1 + weight stack

/-- The record behind a right-hand side weighs one, where there is one. -/
theorem weight_completion (g : Goal) (start : Nat) (stack : List Symbol) :
    weight (g.completion start ++ stack) = g.constituent?.toList.length + weight stack := by
  unfold Goal.completion
  cases g.constituent? with
  | none => simp
  | some constituent => rfl

/-- Expanding a goal makes the weight smaller. -/
theorem weight_expand {g : Goal} {ahead : Kind} {symbols : List Symbol}
    (h : g.expand ahead = .ok symbols) (start : Nat) (stack : List Symbol) :
    weight (symbols ++ (g.completion start ++ stack)) < weight (.goal g :: stack) := by
  have operator_ne : ∀ k ∈ Kind.additive ++ Kind.multiplicative ++ Kind.relational,
      k ≠ .endOfFile := by decide
  have hrecord := weight_completion g start stack
  generalize g.completion start ++ stack = rest at hrecord
  cases g with
  | program =>
    cases h
    simp [weight, Goal.mayBeEmpty, Goal.rank, hrecord, Goal.constituent?]
    omega
  | assignment | print | conditional | expr | term | factor | condition =>
    -- one right-hand side, which starts with a token or a goal that must not be empty
    cases h
    simp [weight, Goal.mayBeEmpty, Goal.rank]
  | statement | ifTail | arg | atom | value | comparison =>
    -- so do these, whichever of them the next token picks
    simp only [Goal.expand] at h
    split at h <;> cases h <;> simp [weight, Goal.mayBeEmpty, Goal.rank]
  | block | argList | atomList =>
    simp only [Goal.expand] at h
    split at h <;> cases h
    · simp [weight, Goal.mayBeEmpty, Goal.rank]
      omega
    · simp [weight, Goal.mayBeEmpty, Goal.rank, hrecord, Goal.constituent?]
  | termList | factorList =>
    simp only [Goal.expand] at h
    split at h <;> cases h
    · rename_i hmem
      have hne : ahead ≠ .endOfFile := operator_ne ahead (by simp [hmem])
      simp [weight, Goal.mayBeEmpty, Goal.rank, hne]
      omega
    · simp [weight, Goal.mayBeEmpty, Goal.rank, hrecord, Goal.constituent?]
  | relOp =>
    simp only [Goal.expand] at h
    split at h <;> cases h
    rename_i hmem
    have hne : ahead ≠ .endOfFile := operator_ne ahead (by simp [hmem])
    simp [weight, Goal.mayBeEmpty, Goal.rank, hne]

end CalcFrontEnd
