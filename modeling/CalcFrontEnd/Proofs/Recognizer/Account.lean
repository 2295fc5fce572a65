/-
  ACCOUNTS — trace, derivation record and tokens account for the same statements, wherever a run stops.

  1. **Balance** — a log is `Balanced` if no front part of it ends more conditionals than it begins, and
     the whole ends as many.  A right-hand side is balanced, and one balanced log put inside another
     leaves it balanced (`Balanced.insert`).  So the trace together with the remarks that wait on the
     stack is balanced at each step; the trace is a front part of that.

  2. **What is due** — a conditional's first token is followed by the remark that it begins, and the
     closing remark of a statement by its record.  In between a run cannot stop: neither a remark nor a
     record is ever a misfit.  `Announced stack` says that on the stack the two always stand one right
     below the other, so that a count is off by one only where its other half is on top (`due`).

  3. **Step and run** — passing a token, expanding a goal, logging and recording keep the accounts
     (`Accounts`), and so every run does (`run_accounts`).

  4. **Result** — `trace_accounts`.
-/
import CalcFrontEnd.Proofs.Recognizer.Blindness

namespace CalcFrontEnd

/-! ## Balance -/

/-- `Balanced log` — conditionals end no earlier than they begin, and all of them do. -/
structure Balanced (log : List Remark) : Prop where
  ends_le : ∀ n, (log.take n).count .ifEnds ≤ (log.take n).count .ifBegins
  ends_eq : log.count .ifEnds = log.count .ifBegins

theorem balanced_nil : Balanced [] := ⟨fun n => by simp, rfl⟩

/-- A front part of a balanced log ends no more than it begins. -/
theorem Balanced.ends_le_left {log more : List Remark} (h : Balanced (log ++ more)) (n : Nat) :
    (log.take n).count .ifEnds ≤ (log.take n).count .ifBegins := by
  have hfront : (log ++ more).take (min n log.length) = log.take n := by
    rw [List.take_append_of_le_length (Nat.min_le_right _ _), ← List.take_eq_take_min]
  have hle := h.ends_le (min n log.length)
  rw [hfront] at hle
  exact hle

/-- **A balanced log inside another leaves it balanced.** -/
theorem Balanced.insert {front back middle : List Remark} (h : Balanced (front ++ back))
    (hmiddle : Balanced middle) : Balanced (front ++ (middle ++ back)) := by
  constructor
  · intro n
    rcases Nat.lt_or_ge n front.length with hlt | hge
    · rw [List.take_append_of_le_length (Nat.le_of_lt hlt)]
      exact h.ends_le_left n
    · -- what is taken of the middle has a balance of its own, the rest is a part of the old log
      have houter := h.ends_le (front.length + (n - front.length - middle.length))
      have hinner := hmiddle.ends_le (n - front.length)
      rw [List.take_length_add_append, List.count_append, List.count_append] at houter
      rw [List.take_append, List.take_of_length_le hge, List.take_append, List.count_append,
        List.count_append, List.count_append, List.count_append]
      omega
  · have houter := h.ends_eq
    have hinner := hmiddle.ends_eq
    rw [List.count_append, List.count_append] at houter
    rw [List.count_append, List.count_append, List.count_append, List.count_append]
    omega

/-- The remark that a symbol is. -/
def Symbol.remark? : Symbol → Option Remark
  | .remark line => some line
  | _ => none

/-- The remarks that wait on a stack. -/
def remarksOf (stack : List Symbol) : List Remark := stack.filterMap Symbol.remark?

theorem remarksOf_append (symbols stack : List Symbol) :
    remarksOf (symbols ++ stack) = remarksOf symbols ++ remarksOf stack :=
  List.filterMap_append

theorem remarksOf_completion (g : Goal) (start : Nat) : remarksOf (g.completion start) = [] := by
  unfold Goal.completion
  cases g.constituent? <;> rfl

/-- **The remarks of a right-hand side are balanced.** -/
theorem balanced_expand {g : Goal} {ahead : Kind} {symbols : List Symbol}
    (h : g.expand ahead = .ok symbols) : Balanced (remarksOf symbols) := by
  have table : ∀ g ∈ Goal.all, ∀ ahead ∈ Kind.all, ∀ symbols ∈ (g.expand ahead).toOption,
      remarksOf symbols ∈ [[], [.assignmentRecognized], [.printRecognized], [.ifBegins, .ifEnds]] := by
    decide +kernel
  have hmem := table g g.mem_all ahead ahead.mem_all symbols (by rw [h]; rfl)
  generalize remarksOf symbols = log at hmem
  simp only [List.mem_cons, List.not_mem_nil, or_false] at hmem
  obtain rfl | rfl | rfl | rfl := hmem
  all_goals
    refine ⟨?_, by decide⟩
    rintro (- | - | n) <;> simp

/-! ## What is due -/

/-- What can be due at once. -/
inductive Due where
  /-- The remark that a conditional begins. -/
  | beginning
  /-- The record of a statement. -/
  | statement
deriving DecidableEq, Repr

/-- What a symbol notes down, as far as it is announced. -/
def Symbol.notes? : Symbol → Option Due
  | .remark .ifBegins => some .beginning
  | .complete .statement _ => some .statement
  | _ => none

/-- What has to be noted down right behind a symbol. -/
def Symbol.announces? : Symbol → Option Due
  | .token .ifWord => some .beginning
  | .remark .ifBegins => none
  | .remark _ => some .statement
  | .goal .assignment | .goal .print | .goal .conditional => some .statement
  | _ => none

/-- What is due on top of a stack, if `behind` is due below it. -/
def due : List Symbol → Option Due → Option Due
  | [], behind => behind
  | symbol :: _, _ => symbol.notes?

/-- `Announced stack behind` — what a symbol announces is due right below it, and nothing else is. -/
def Announced : List Symbol → Option Due → Prop
  | [], _ => True
  | symbol :: stack, behind => symbol.announces? = due stack behind ∧ Announced stack behind

instance instDecidableAnnounced : ∀ stack behind, Decidable (Announced stack behind)
  | [], _ => inferInstanceAs (Decidable True)
  | symbol :: stack, behind =>
    have := instDecidableAnnounced stack behind
    inferInstanceAs (Decidable (symbol.announces? = due stack behind ∧ Announced stack behind))

theorem due_append (symbols stack : List Symbol) (behind : Option Due) :
    due (symbols ++ stack) behind = due symbols (due stack behind) := by
  cases symbols <;> rfl

theorem announced_append {symbols stack : List Symbol} {behind : Option Due} :
    Announced (symbols ++ stack) behind ↔
      Announced symbols (due stack behind) ∧ Announced stack behind := by
  induction symbols with
  | nil => exact ⟨fun h => ⟨trivial, h⟩, fun h => h.2⟩
  | cons symbol symbols ih =>
    show _ = due (symbols ++ stack) behind ∧ Announced (symbols ++ stack) behind ↔ (_ ∧ _) ∧ _
    rw [ih, due_append, and_assoc]

/-- The record behind a right-hand side is announced by it, and announces what its goal does. -/
theorem announced_completion (g : Goal) (start : Nat) :
    Announced (g.completion start) (Symbol.goal g).announces? ∧
      due (g.completion start) (Symbol.goal g).announces? =
        due (g.completion 0) (Symbol.goal g).announces? := by
  cases g <;> simp [Goal.completion, Goal.constituent?, Announced, due, Symbol.announces?,
    Symbol.notes?]

/-- **Expanding a goal keeps what is announced and what is due.** -/
theorem Announced.expand {g : Goal} {ahead : Kind} {symbols stack : List Symbol}
    (h : Announced (.goal g :: stack) none) (hexpand : g.expand ahead = .ok symbols) (start : Nat) :
    Announced (symbols ++ (g.completion start ++ stack)) none ∧
      due (symbols ++ (g.completion start ++ stack)) none = none := by
  have table : ∀ g ∈ Goal.all, ∀ ahead ∈ Kind.all, ∀ symbols ∈ (g.expand ahead).toOption,
      Announced symbols (due (g.completion 0) (Symbol.goal g).announces?) ∧
        due symbols (due (g.completion 0) (Symbol.goal g).announces?) = none := by decide +kernel
  obtain ⟨hgoal, hstack⟩ := h
  obtain ⟨hcompletion, hsame⟩ := announced_completion g start
  obtain ⟨hsymbols, hdue⟩ := table g g.mem_all ahead ahead.mem_all symbols (by rw [hexpand]; rfl)
  have hbehind : due (g.completion start ++ stack) none =
      due (g.completion 0) (Symbol.goal g).announces? := by
    rw [due_append, ← hgoal, hsame]
  constructor
  · rw [announced_append, hbehind, announced_append, ← hgoal]
    exact ⟨hsymbols, hcompletion, hstack⟩
  · rw [due_append, hbehind]
    exact hdue

/-! ## Accounts -/

/-- How often something is due on top of a stack. -/
def owed (what : Due) (stack : List Symbol) : Nat := if due stack none = some what then 1 else 0

theorem owed_of_due {stack : List Symbol} (h : due stack none = none) (what : Due) :
    owed what stack = 0 := by
  rw [owed, h]
  rfl

/-- On top of a stack is due what the first symbol notes down. -/
theorem owed_cons (what : Due) (symbol : Symbol) (stack : List Symbol) :
    owed what (symbol :: stack) = if symbol.notes? = some what then 1 else 0 := rfl

/-- Below a symbol is due what it announces. -/
theorem Announced.owed_eq {symbol : Symbol} {stack : List Symbol}
    (h : Announced (symbol :: stack) none) (what : Due) :
    owed what stack = if symbol.announces? = some what then 1 else 0 := by
  rw [owed, ← h.1]

theorem Symbol.announces?_token (kind : Kind) :
    (Symbol.token kind).announces? = if kind = .ifWord then some .beginning else none := by
  cases kind <;> rfl

namespace Recognizer

/-- `Accounts passed stack s` — where `s` has passed tokens of the kinds `passed` and `stack` is left, the
    trace is a front part of a balanced log; the conditionals it begins are the `IF` tokens, and its
    other lines the recorded statements, but for what is due. -/
structure Accounts (passed : List Kind) (stack : List Symbol) (s : Recognizer) : Prop where
  announced : Announced stack none
  balanced : Balanced (s.trace.toList ++ remarksOf stack)
  begins : passed.count .ifWord = s.trace.toList.count .ifBegins + owed .beginning stack
  statements : s.trace.toList.countP (· ≠ .ifBegins) =
    s.derivations.toList.countP (·.constituent = .statement) + owed .statement stack

namespace Accounts

variable {passed : List Kind} {stack : List Symbol} {s : Recognizer}

/-- An `IF` token makes its remark due, any other token nothing. -/
theorem advance {kind : Kind} (h : Accounts passed (.token kind :: stack) s) :
    Accounts (passed ++ [kind]) stack s.advance := by
  have hbegins := h.begins
  have hstatements := h.statements
  rw [owed_of_due rfl] at hbegins hstatements
  refine ⟨h.announced.2, h.balanced, ?_, ?_⟩
  · show (passed ++ [kind]).count .ifWord = s.trace.toList.count .ifBegins + owed .beginning stack
    rw [List.count_append, hbegins, h.announced.owed_eq, Symbol.announces?_token]
    by_cases hkind : kind = .ifWord <;> simp [hkind]
  · show s.trace.toList.countP _ = s.derivations.toList.countP _ + owed .statement stack
    rw [hstatements, h.announced.owed_eq, Symbol.announces?_token]
    by_cases hkind : kind = .ifWord <;> simp [hkind]

theorem expand {g : Goal} {ahead : Kind} {symbols : List Symbol}
    (h : Accounts passed (.goal g :: stack) s) (hexpand : g.expand ahead = .ok symbols) (start : Nat) :
    Accounts passed (symbols ++ (g.completion start ++ stack)) s := by
  obtain ⟨hannounced, hdue⟩ := h.announced.expand hexpand start
  refine ⟨hannounced, ?_, ?_, ?_⟩
  · rw [remarksOf_append, remarksOf_append, remarksOf_completion, List.nil_append]
    exact h.balanced.insert (balanced_expand hexpand)
  · rw [owed_of_due hdue]
    exact h.begins
  · rw [owed_of_due hdue]
    exact h.statements

/-- A remark that was due settles one account; a closing remark opens the other. -/
theorem log {remark : Remark} (h : Accounts passed (.remark remark :: stack) s) :
    Accounts passed stack (s.log remark) := by
  refine ⟨h.announced.2, ?_, ?_, ?_⟩
  · rw [toList_trace_log, List.append_assoc]
    exact h.balanced
  · rw [toList_trace_log, List.count_append, h.begins, owed_cons, h.announced.owed_eq]
    cases remark <;> simp [Symbol.notes?, Symbol.announces?]
  · show _ = s.derivations.toList.countP _ + _
    rw [toList_trace_log, List.countP_append, h.statements, owed_cons, h.announced.owed_eq]
    cases remark <;> simp [Symbol.notes?, Symbol.announces?]

/-- The record of a statement was due, and settles the account. -/
theorem record {constituent : Constituent} {start : Nat}
    (h : Accounts passed (.complete constituent start :: stack) s) :
    Accounts passed stack (s.record constituent start) := by
  refine ⟨h.announced.2, h.balanced, ?_, ?_⟩
  · show _ = s.trace.toList.count _ + _
    rw [h.begins, owed_cons, h.announced.owed_eq]
    cases constituent <;> simp [Symbol.notes?, Symbol.announces?]
  · show s.trace.toList.countP _ = _
    rw [toList_derivations_record, List.countP_append, h.statements, owed_cons,
      h.announced.owed_eq]
    cases constituent <;> simp [Symbol.notes?, Symbol.announces?]

end Accounts

theorem preserved_accounts : Preserved Accounts where
  advance := Accounts.advance
  expand := by
    intro passed g stack s symbols h hexpand
    exact h.expand hexpand s.position
  log := Accounts.log
  record := Accounts.record

/-- **Wherever a run stops, its accounts are in order**, and nothing is due. -/
theorem run_accounts (stack : List Symbol) (s : Recognizer) {passed : List Kind}
    (h : Accounts passed stack s) :
    ∃ word left, s.Passes word (s.run stack).state ∧
      Accounts (passed ++ word) left (s.run stack).state ∧ due left none = none ∧
      ((s.run stack).fault = none → left = []) := by
  obtain ⟨word, left, hpass, haccounts, hfinished, hmisfit⟩ := preserved_accounts.run stack s passed h
  refine ⟨word, left, hpass, haccounts, ?_, hfinished⟩
  cases hfault : (s.run stack).fault with
  | none =>
    rw [hfinished hfault]
    rfl
  | some fault =>
    -- a token or a goal is on top, and these note nothing down
    cases hmisfit hfault with
    | token hne => rfl
    | goal herror => rfl

/-- End tokens apart, what lies ahead is counted in the list. -/
theorem count_kindsAhead {kind : Kind} (hkind : kind ≠ .endOfFile) (s : Recognizer) (n : Nat) :
    (s.kindsAhead n).count kind = ((s.rest.take n).map Token.kind).count kind := by
  induction n with
  | zero => rw [List.take_zero]; rfl
  | succ n ih =>
    rw [kindsAhead_succ, List.count_append, ih, List.take_add_one, List.map_append, List.count_append,
      kindAt]
    cases s.rest[n]? with
    | none => simp [hkind.symm]
    | some token => rfl

end Recognizer

namespace Outcome

open Recognizer

/-- **Trace, record and tokens account for the same statements, whether recognizing succeeds or fails.**
    No front part of the trace ends more conditionals than it begins, and in an accepted list all of
    them end; the trace begins as many as there are `IF` tokens among those that were passed; and its
    other lines are as many as the statements in the record. -/
theorem trace_accounts (tokens : List Token) :
    (∀ n, ((ofTokens tokens).trace.take n).count .ifEnds ≤
      ((ofTokens tokens).trace.take n).count .ifBegins) ∧
    ((ofTokens tokens).failure = none →
      (ofTokens tokens).trace.count .ifEnds = (ofTokens tokens).trace.count .ifBegins) ∧
    (ofTokens tokens).trace.count .ifBegins =
      ((tokens.take (stopIndex tokens)).map Token.kind).count .ifWord ∧
    (ofTokens tokens).trace.countP (· ≠ .ifBegins) =
      (ofTokens tokens).derivations.countP (·.constituent = .statement) := by
  have hstart : Accounts [] [.goal .program] (Recognizer.ofTokens tokens) :=
    ⟨by decide, balanced_nil, rfl, rfl⟩
  obtain ⟨word, left, hpass, haccounts, hdue, hleft⟩ := run_accounts _ _ hstart
  have hstop : stopIndex tokens = 0 + word.length := hpass.position
  refine ⟨haccounts.balanced.ends_le_left, ?_, ?_, ?_⟩
  · intro haccepted
    have hfault := (Ending.programError?_eq_none_iff.mp haccepted).1
    have hbalanced := haccounts.balanced
    rw [hleft hfault, remarksOf, List.filterMap_nil, List.append_nil] at hbalanced
    exact hbalanced.ends_eq
  · have hbegins := haccounts.begins
    rw [owed_of_due hdue, List.nil_append, ← hpass.kinds, count_kindsAhead (by decide)] at hbegins
    rw [hstop, Nat.zero_add]
    exact hbegins.symm
  · have hstatements := haccounts.statements
    rw [owed_of_due hdue] at hstatements
    exact hstatements

end Outcome

end CalcFrontEnd
