/-
  ITEMS OF A SCAN — a token or a lexical error, in the order the scanner met them.

  `separate` takes a scan apart into its tokens and its errors, each in their own order.
-/
import CalcFrontEnd.Lexis.Fault
import CalcFrontEnd.Token.Basic

namespace CalcFrontEnd

/-- One thing that the scanner reports. -/
inductive Item where
  | token (token : Token)
  | error (error : LexicalError)
deriving DecidableEq, Repr

namespace Item

/-- The line the item stands on. -/
def line : Item → Nat
  | token t => t.line
  | error e => e.line

def token? : Item → Option Token
  | token t => some t
  | error _ => none

def error? : Item → Option LexicalError
  | token _ => none
  | error e => some e

/-- Whether the item is the token that ends a scan. -/
def isEnd : Item → Bool
  | token t => t.kind == .endOfFile
  | error _ => false

/-- The tokens of a scan and its errors. -/
def separate (items : List Item) : List Token × List LexicalError :=
  (items.filterMap token?, items.filterMap error?)

end Item

end CalcFrontEnd
