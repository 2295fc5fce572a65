/-
  STEPS — a run of the recognizer, taken one symbol at a time.

  1. **Data** — a `Config` is a stack of symbols and the recognizer that works it off.  `c.Step d` works off
     the symbol on top, `Steps n c d` does so `n` times, and `c.Ends ending` says that there is nothing
     to work off any more, or nothing that fits.

  2. **Bridge** — the steps are those of the run: they lead to its ending (`exists_steps_run`), and wherever
     else they lead, what is left to do comes to that ending too (`Steps.run_eq`).

  3. **On the way** — what each step keeps holds wherever steps lead, and not only where a run stops
     (`Preserved.steps`).  So all that a run goes through are reachable states (`Reachable.steps`).

  4. **Calls** — `s.Calls g g' t`: while goal `g` is worked off from `s`, goal `g'` comes to the top of the stack
     at `t`.  What lies below a goal does not bear on its steps (`Steps.above`), so it is enough to look
     at `g` alone, and a call inside a call is a call (`Calls.trans`).
-/
import CalcFrontEnd.Proofs.Recognizer.Entry

namespace CalcFrontEnd.Recognizer

/-- A stack of symbols, and the recognizer that works it off. -/
structure Config where
  stack : List Symbol
  state : Recognizer

namespace Config

/-- `c.Step d` — the symbol on top of the stack of `c` is worked off, which gives `d`. -/
inductive Step : Config → Config → Prop where
  | token {stack : List Symbol} {s : Recognizer} :
      Step ⟨.token s.lookahead.kind :: stack, s⟩ ⟨stack, s.advance⟩
  | goal {g : Goal} {stack symbols : List Symbol} {s : Recognizer}
      (h : g.expand s.lookahead.kind = .ok symbols) :
      Step ⟨.goal g :: stack, s⟩ ⟨symbols ++ (g.completion s.position ++ stack), s⟩
  | remark {remark : Remark} {stack : List Symbol} {s : Recognizer} :
      Step ⟨.remark remark :: stack, s⟩ ⟨stack, s.log remark⟩
  | complete {constituent : Constituent} {start : Nat} {stack : List Symbol} {s : Recognizer} :
      Step ⟨.complete constituent start :: stack, s⟩ ⟨stack, s.record constituent start⟩

/-- `Steps n c d` — `n` steps lead from `c` to `d`. -/
inductive Steps : Nat → Config → Config → Prop where
  | refl (c : Config) : Steps 0 c c
  | tail {n : Nat} {c d e : Config} (hs : Steps n c d) (h : d.Step e) : Steps (n + 1) c e

/-- `c.Ends ending` — the stack is empty, or its top does not fit the next token; and that is what the
    ending says. -/
inductive Ends : Config → Ending → Prop where
  | finished (s : Recognizer) : Ends ⟨[], s⟩ ⟨s, none⟩
  | misfit {stack : List Symbol} {s : Recognizer} {fault : ParseFault} (h : s.Misfit stack fault) :
      Ends ⟨stack, s⟩ ⟨s, some fault⟩

/-- The configuration with more symbols at the bottom of its stack. -/
def above (c : Config) (below : List Symbol) : Config := { c with stack := c.stack ++ below }

/-! ## Steps and runs -/

variable {c d e : Config} {m n : Nat}

theorem Steps.trans (h : Steps m c d) (h' : Steps n d e) : Steps (m + n) c e := by
  induction h' with
  | refl d => exact h
  | tail _ hstep ih => exact .tail (ih h) hstep

/-- At the end there is no step. -/
theorem Ends.not_step {ending : Ending} (h : c.Ends ending) : ¬c.Step d := by
  intro hstep
  cases h with
  | finished s => cases hstep
  | misfit h =>
    cases h with
    | token hne =>
      cases hstep
      exact hne rfl
    | goal herror =>
      cases hstep with
      | goal hexpand =>
        rw [herror] at hexpand
        cases hexpand

/-- A step does not change what the run comes to. -/
theorem Step.run_eq (h : c.Step d) : d.state.run d.stack = c.state.run c.stack := by
  cases h with
  | token => exact (run_token rfl _).symm
  | goal hexpand => exact (run_goal hexpand _).symm
  | remark => exact (run_remark _ _ _).symm
  | complete => exact (run_complete _ _ _ _).symm

/-- **Wherever steps lead, what is left to do comes to the same ending.** -/
theorem Steps.run_eq (h : Steps n c d) : d.state.run d.stack = c.state.run c.stack := by
  induction h with
  | refl c => rfl
  | tail _ hstep ih => rw [hstep.run_eq, ih]

/-- What lies below does not bear on a step. -/
theorem Step.above (h : c.Step d) (below : List Symbol) : (c.above below).Step (d.above below) := by
  cases h with
  | token => exact .token
  | @goal g stack symbols s hexpand =>
    show Step ⟨.goal g :: (stack ++ below), s⟩
      ⟨(symbols ++ (g.completion s.position ++ stack)) ++ below, s⟩
    rw [List.append_assoc, List.append_assoc]
    exact .goal hexpand
  | remark => exact .remark
  | complete => exact .complete

theorem Steps.above (h : Steps n c d) (below : List Symbol) :
    Steps n (c.above below) (d.above below) := by
  induction h with
  | refl c => exact .refl _
  | tail _ hstep ih => exact .tail ih (hstep.above below)

end Config

open Config

/-- Where a run has come to after steps, its next step leads on from there. -/
theorem preserved_steps (c : Config) : Preserved fun _ stack s => ∃ n, Steps n c ⟨stack, s⟩ where
  advance := fun ⟨n, h⟩ => ⟨n + 1, h.tail .token⟩
  expand := fun ⟨n, h⟩ hexpand => ⟨n + 1, h.tail (.goal hexpand)⟩
  log := fun ⟨n, h⟩ => ⟨n + 1, h.tail .remark⟩
  record := fun ⟨n, h⟩ => ⟨n + 1, h.tail .complete⟩

/-- **Steps lead to the ending of a run.** -/
theorem exists_steps_run (stack : List Symbol) (s : Recognizer) :
    ∃ n d, Steps n ⟨stack, s⟩ d ∧ d.Ends (s.run stack) := by
  obtain ⟨word, left, -, ⟨n, hsteps⟩, hfinished, hmisfit⟩ :=
    (preserved_steps ⟨stack, s⟩).run stack s [] ⟨0, .refl _⟩
  refine ⟨n, _, hsteps, ?_⟩
  cases hending : s.run stack with
  | mk state fault =>
    rw [hending] at hfinished hmisfit
    cases fault with
    | none =>
      rw [hfinished rfl]
      exact .finished state
    | some fault => exact .misfit (hmisfit rfl)

/-! ## On the way -/

/-- **What each step keeps holds wherever steps lead.** -/
theorem Preserved.steps {inv : List Kind → List Symbol → Recognizer → Prop} (h : Preserved inv)
    {n : Nat} {c d : Config} (hsteps : Steps n c d) (passed : List Kind)
    (hc : inv passed c.stack c.state) :
    ∃ word, c.state.Passes word d.state ∧ inv (passed ++ word) d.stack d.state := by
  induction hsteps with
  | refl c =>
    rw [← List.append_nil passed] at hc
    exact ⟨[], .refl _, hc⟩
  | tail _ hstep ih =>
    obtain ⟨word, hpass, hinv⟩ := ih hc
    cases hstep with
    | @token stack s =>
      refine ⟨word ++ [s.lookahead.kind], hpass.trans (.cons (.refl _)), ?_⟩
      rw [← List.append_assoc]
      exact h.advance hinv
    | goal hexpand => exact ⟨word, hpass, h.expand hinv hexpand⟩
    | remark =>
      exact ⟨word, ⟨hpass.kinds, hpass.rest, hpass.position, hpass.lastLine⟩, h.log hinv⟩
    | complete =>
      exact ⟨word, ⟨hpass.kinds, hpass.rest, hpass.position, hpass.lastLine⟩, h.record hinv⟩

/-- Each step of a run is an operation, or changes the stack alone. -/
theorem preserved_reachable (tokens : List Token) : Preserved fun _ _ s => Reachable tokens s where
  advance := fun h => h.perform .advance
  expand := fun h _ => h
  log := fun h => h.perform (.log _)
  record := fun h => h.perform (.record _ _)

/-- **A run goes through reachable states.** -/
theorem Reachable.steps {tokens : List Token} {n : Nat} {c d : Config}
    (h : Reachable tokens c.state) (hsteps : Steps n c d) :
    ∃ word, c.state.Passes word d.state ∧ Reachable tokens d.state :=
  (preserved_reachable tokens).steps hsteps [] h

/-! ## Calls -/

/-- `s.Calls g g' t` — while goal `g` is worked off from `s`, and before that is done, goal `g'` comes to the
    top of the stack, at the place where `t` stands. -/
def Calls (s : Recognizer) (g g' : Goal) (t : Recognizer) : Prop :=
  ∃ n left, Steps (n + 1) ⟨[.goal g], s⟩ ⟨.goal g' :: left, t⟩

/-- A call inside a call is a call. -/
theorem Calls.trans {s t r : Recognizer} {g g' g'' : Goal} (h : s.Calls g g' t)
    (h' : t.Calls g' g'' r) : s.Calls g g'' r := by
  obtain ⟨m, below, hsteps⟩ := h
  obtain ⟨n, left, hsteps'⟩ := h'
  exact ⟨m + 1 + n, left ++ below, hsteps.trans (hsteps'.above below)⟩

end CalcFrontEnd.Recognizer
