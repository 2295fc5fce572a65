/-
  ENTRY POINTS — a goal that is tried anywhere recognizes exactly its nonterminal, as far as it goes.

  1. **States** — an `Operation` is one of the things a caller may do with a recognizer, and a state is
     `Reachable` if operations lead to it, those that fail included.  In each such state the tokens
     left are the ones from the position on (`Reachable.rest_eq`).

  2. **Greed** — the lists of the grammar take all they can get, so some kinds cannot come next behind a
     goal that was recognized: no `+` behind an expression.  `Symbol.excludes` says which, one symbol
     at a time.  What cannot come next in front of a symbol matters too: the list of terms behind a
     term may be empty, and then the kinds that are excluded behind the term stay so.

  3. **Crux (`run_excludes`)** — the token at which a run comes to its end is none of the kinds that its
     stack excludes.  One step is a finite table (`excludes_expand`).

  4. **Result** — `recognize_iff`: with soundness and completeness of a run, a goal gets through `n`
     tokens exactly if these are a word of its nonterminal and the token behind them does not prolong
     it.
-/
import CalcFrontEnd.Proofs.Recognizer.Record

namespace CalcFrontEnd

/-! ## Reachable states -/

/-- What can be done with a recognizer. -/
inductive Operation where
  | advance
  | expect (kind : Kind)
  /-- Asks for the error of a fault at the next token. -/
  | error (fault : ParseFault)
  | log (remark : Remark)
  | record (constituent : Constituent) (start : Nat)
  | recognize (goal : Goal)
deriving DecidableEq, Repr

namespace Recognizer

/-- The recognizer after an operation, whether that one fails or not. -/
def perform (s : Recognizer) : Operation → Recognizer
  | .advance => s.advance
  | .expect kind => (s.expect kind).state
  | .error _ => s
  | .log remark => s.log remark
  | .record constituent start => s.record constituent start
  | .recognize goal => (s.recognize goal).state

/-- `Reachable tokens s` — operations lead from the front of the token list to `s`. -/
inductive Reachable (tokens : List Token) : Recognizer → Prop where
  | start : Reachable tokens (.ofTokens tokens)
  | perform {s : Recognizer} (h : Reachable tokens s) (operation : Operation) :
      Reachable tokens (s.perform operation)

/-- A run keeps the tokens left where the position says they are. -/
theorem rest_run {tokens : List Token} {s : Recognizer} (h : s.rest = tokens.drop s.position)
    (stack : List Symbol) :
    (s.run stack).state.rest = tokens.drop (s.run stack).state.position := by
  obtain ⟨word, left, hstops⟩ := run_stops stack s
  rw [hstops.passes.rest, hstops.passes.position, h, List.drop_drop]

/-- **In a reachable state the tokens left are the ones from the position on.** -/
theorem Reachable.rest_eq {tokens : List Token} {s : Recognizer} (h : Reachable tokens s) :
    s.rest = tokens.drop s.position := by
  induction h with
  | start => rfl
  | @perform s _ operation ih =>
    cases operation with
    | advance =>
      show s.rest.tail = tokens.drop (s.position + 1)
      rw [ih, List.tail_drop]
    | expect kind => exact rest_run ih [.token kind]
    | error fault => exact ih
    | log remark => exact ih
    | record constituent start => exact ih
    | recognize goal => exact rest_run ih [.goal goal]

end Recognizer

/-- The kind of the token at an index; behind the list there are end tokens. -/
def kindAtIndex (tokens : List Token) (index : Nat) : Kind :=
  (tokens[index]?.map Token.kind).getD .endOfFile

/-- The kinds of the `n` tokens from an index on. -/
def kindsFrom (tokens : List Token) (index n : Nat) : List Kind :=
  (List.range n).map fun i => kindAtIndex tokens (index + i)

namespace Recognizer.Reachable

variable {tokens : List Token} {s : Recognizer}

theorem kindAt_eq (h : Reachable tokens s) (n : Nat) :
    s.kindAt n = kindAtIndex tokens (s.position + n) := by
  rw [kindAt, kindAtIndex, h.rest_eq, List.getElem?_drop]

theorem kindsAhead_eq (h : Reachable tokens s) (n : Nat) :
    s.kindsAhead n = kindsFrom tokens s.position n := by
  induction n with
  | zero => rfl
  | succ n ih =>
    rw [kindsAhead_succ, ih, h.kindAt_eq]
    unfold kindsFrom
    rw [List.range_succ, List.map_append]
    rfl

end Recognizer.Reachable

/-! ## What cannot come next -/

/-- The kinds that cannot come next behind a goal. -/
def Goal.excluded : Goal → List Kind
  | .block => Kind.statementStarts
  | .expr | .termList | .condition | .comparison => Kind.exprContinuations
  | .term | .factorList => Kind.multiplicative ++ [.raise]
  | .factor | .atomList => [.raise]
  | _ => []

/-- The kinds that must not come next in front of a goal, for the others to be excluded behind it. -/
def Goal.presumed : Goal → List Kind
  | .termList => Kind.multiplicative ++ [.raise]
  | .factorList => [.raise]
  | _ => []

/-- The kinds that cannot come next behind a symbol, if those in `kinds` cannot in front of it. -/
def Symbol.excludes : Symbol → List Kind → List Kind
  | .token _, _ => []
  | .goal g, kinds => if ∀ kind ∈ g.presumed, kind ∈ kinds then g.excluded else []
  | .remark _, kinds => kinds
  | .complete _ _, kinds => kinds

/-- The kinds that cannot come next behind a stack of symbols. -/
def excludedBehind (stack : List Symbol) (kinds : List Kind) : List Kind :=
  stack.foldl (fun kinds symbol => symbol.excludes kinds) kinds

/-- All kinds but one. -/
def Kind.others (kind : Kind) : List Kind := Kind.all.filter (· ≠ kind)

theorem Kind.mem_others {kind other : Kind} : other ∈ kind.others ↔ other ≠ kind := by
  simp [others, mem_all]

theorem excludedBehind_append (symbols stack : List Symbol) (kinds : List Kind) :
    excludedBehind (symbols ++ stack) kinds = excludedBehind stack (excludedBehind symbols kinds) :=
  List.foldl_append

/-- The record behind a right-hand side changes nothing. -/
theorem excludedBehind_completion (g : Goal) (start : Nat) (kinds : List Kind) :
    excludedBehind (g.completion start) kinds = kinds := by
  unfold Goal.completion
  cases g.constituent? <;> rfl

/-- The more is excluded in front, the more is behind. -/
theorem excludedBehind_mono (stack : List Symbol) {kinds more : List Kind} (h : kinds ⊆ more) :
    excludedBehind stack kinds ⊆ excludedBehind stack more := by
  induction stack generalizing kinds more with
  | nil => exact h
  | cons symbol stack ih =>
    refine ih ?_
    cases symbol with
    | token kind => exact List.Subset.refl _
    | goal g =>
      intro kind hkind
      simp only [Symbol.excludes] at hkind ⊢
      split at hkind
      · rename_i hpresumed
        rw [if_pos fun other hother => h (hpresumed other hother)]
        exact hkind
      · cases hkind
    | remark remark => exact h
    | complete constituent start => exact h

/-- **A right-hand side excludes what its goal does**, the next token being known. -/
theorem excludes_expand {g : Goal} {ahead : Kind} {symbols : List Symbol}
    (h : g.expand ahead = .ok symbols) :
    (Symbol.goal g).excludes ahead.others ⊆ excludedBehind symbols ahead.others := by
  have table : ∀ g ∈ Goal.all, ∀ ahead ∈ Kind.all, ∀ symbols ∈ (g.expand ahead).toOption,
      ∀ kind ∈ (Symbol.goal g).excludes ahead.others,
        kind ∈ excludedBehind symbols ahead.others := by decide +kernel
  exact fun kind => table g g.mem_all ahead ahead.mem_all symbols (by rw [h]; rfl) kind

namespace Recognizer

/-- Each step keeps what is excluded behind the stack. -/
theorem preserved_excludes (kinds : List Kind) :
    Preserved fun _ stack s => kinds ⊆ excludedBehind stack s.lookahead.kind.others where
  advance := by
    -- behind a token nothing is known of the next one
    intro passed stack s h kind hkind
    exact excludedBehind_mono stack (List.nil_subset _) (h hkind)
  expand := by
    intro passed g stack s symbols h hexpand kind hkind
    rw [excludedBehind_append, excludedBehind_append, excludedBehind_completion]
    exact excludedBehind_mono stack (excludes_expand hexpand) (h hkind)
  log := fun h => h
  record := fun h => h

/-- **A run that gets through ends in front of none of the kinds that its stack excludes.** -/
theorem run_excludes (stack : List Symbol) (s : Recognizer) (h : (s.run stack).fault = none) :
    (s.run stack).state.lookahead.kind ∉ excludedBehind stack s.lookahead.kind.others := by
  obtain ⟨word, left, -, hexcluded, hfinished, -⟩ :=
    (preserved_excludes _).run stack s [] (List.Subset.refl _)
  rw [hfinished h] at hexcluded
  intro hmem
  exact Kind.mem_others.mp (hexcluded hmem) rfl

/-! ## Nonterminals -/

/-- A nonterminal whose goal excludes all that would prolong it is recognized as far as it goes: its
    goal gets through `n` tokens exactly if they are a word, and the next one does not prolong it. -/
theorem recognize_goal_iff {x : Nonterminal} (hpresumed : x.goal.presumed = [])
    (hexcluded : x.continuations ⊆ x.goal.excluded) (s : Recognizer) (n : Nat) :
    (s.recognize x.goal).fault = none ∧ (s.recognize x.goal).state.position = s.position + n ↔
      x.Yields (s.kindsAhead n) ∧ s.kindAt n ∉ x.continuations := by
  have hform : sententialForm [.goal x.goal] = [.nonterminal x] := by
    rw [sententialForm_cons, Symbol.form, x.form_goal]
    rfl
  constructor
  · rintro ⟨hfault, hposition⟩
    obtain ⟨word, hword, hpass⟩ := derives_of_run hfault
    obtain rfl : word.length = n := by
      have hlength : (s.recognize x.goal).state.position = s.position + word.length := hpass.position
      omega
    rw [hpass.kinds, hpass.kindAt_length]
    constructor
    · rw [hform] at hword
      exact hword
    · intro hmem
      refine run_excludes _ s hfault ?_
      show _ ∈ (Symbol.goal x.goal).excludes _
      rw [Symbol.excludes, hpresumed, if_pos fun _ hkind => nomatch hkind]
      exact hexcluded hmem
  · rintro ⟨hword, hnext⟩
    have hderives : Derives (sententialForm [.goal x.goal]) (s.kindsAhead n) := by
      rw [hform]
      exact hword
    have hsettles : Settles (sententialForm [.goal x.goal]) (s.kindAt n) := by
      rw [hform]
      refine ⟨?_, trivial⟩
      intro kind hkind
      rw [List.mem_singleton.mp hkind]
      exact hnext
    have hlength := length_kindsAhead s n
    obtain ⟨hfault, hpass⟩ := run_of_derives _ s hderives hsettles (by rw [hlength, kindsAhead_succ])
    have hposition := hpass.position
    rw [hlength] at hposition
    exact ⟨hfault, hposition⟩

end Recognizer

/-- The nonterminals that are recognized on their own. -/
def Nonterminal.entryPoints : List Nonterminal :=
  [expr, term, factor, atom, value, condition, statement, block]

/-- Their goals exclude all that would prolong them, whatever comes next in front of them. -/
theorem Nonterminal.excluded_of_entryPoints : ∀ x ∈ entryPoints,
    x.goal.presumed = [] ∧ ∀ kind ∈ x.continuations, kind ∈ x.goal.excluded := by decide

namespace Recognizer

/-- **Each entry point recognizes exactly its nonterminal, from any reachable state.**  The goal gets
    through and moves the position by `n` exactly if the next `n` kinds, end tokens behind the list
    included, are a word of the nonterminal, and the kind behind them does not prolong it. -/
theorem recognize_iff {tokens : List Token} {s : Recognizer} (h : Reachable tokens s)
    {x : Nonterminal} (hx : x ∈ Nonterminal.entryPoints) (n : Nat) :
    (s.recognize x.goal).fault = none ∧ (s.recognize x.goal).state.position = s.position + n ↔
      x.Yields (kindsFrom tokens s.position n) ∧
        kindAtIndex tokens (s.position + n) ∉ x.continuations := by
  obtain ⟨hpresumed, hexcluded⟩ := Nonterminal.excluded_of_entryPoints x hx
  rw [← h.kindsAhead_eq, ← h.kindAt_eq]
  exact recognize_goal_iff hpresumed (fun kind => hexcluded kind) s n

/-- In front of the sign of `x := - 2 ** 2 ;`, after a condition was tried and failed at `:=`. -/
def behindAssign : Recognizer :=
  ((Recognizer.ofTokens negatedPower).perform (.recognize .condition)).perform (.expect .assign)

/-- A factor gets through all of `- 2 ** 2`, and not through `- 2` alone, though that is a factor too:
    the power prolongs it. -/
theorem recognize_iff_behindAssign :
    ((behindAssign.recognize .factor).fault = none ∧
      (behindAssign.recognize .factor).state.position = behindAssign.position + 4) ∧
    Nonterminal.factor.Yields [.minus, .number, .raise, .number] ∧
    ¬((behindAssign.recognize .factor).fault = none ∧
      (behindAssign.recognize .factor).state.position = behindAssign.position + 2) := by
  have hreachable : Reachable negatedPower behindAssign := (Reachable.start.perform _).perform _
  have hposition : behindAssign.position = 2 := by
    simp [behindAssign, perform, negatedPower, Recognizer.ofTokens]
  have hyields : Nonterminal.factor.Yields [.minus, .number, .raise, .number] :=
    Tree.yields ⟨.node .atom (.leaf .minus (.node .value (.leaf .number .nil) .nil))
      (.node .atomList (.leaf .raise (.node .atom (.node .value (.leaf .number .nil) .nil)
        (.node .atomList .nil .nil))) .nil), by decide, by decide⟩
  refine ⟨(recognize_iff hreachable (x := .factor) (by decide) 4).mpr ?_, hyields, ?_⟩
  · rw [hposition]
    exact ⟨hyields, by decide⟩
  · intro h
    obtain ⟨-, hnext⟩ := (recognize_iff hreachable (x := .factor) (by decide) 2).mp h
    rw [hposition] at hnext
    exact absurd hnext (by decide)

end Recognizer

end CalcFrontEnd
