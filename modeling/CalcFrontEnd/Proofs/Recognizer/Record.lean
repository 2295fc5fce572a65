/-
  RECORDS — trace and derivation record of a run are those of the derivation tree.

  1. **Specification** — `Notes stack start row log record`: the letters of the stack are the roots of a
     row of derivation trees, and working off the stack from token index `start` logs `log` and records
     `record`.  It is said symbol by symbol, with no run in it: a goal contributes what its trees say,
     an action what it notes down itself.

  2. **One step** — `notes_of_expand`: what a right-hand side notes down, its actions included, is what the
     tree says that grows from it.  For the record this holds of every goal alike, since none of the
     right-hand sides records anything itself.  For the log the remarks of the three sorts of statement
     have to be matched.

  3. **Run** — `run_notes`: a run that gets through notes down the log and the record of some row.

  4. **Result** — `record_of_accepted`: with a block there is just one tree of its word, so the record and
     the trace of an accepted token list are those of the tree.
-/
import CalcFrontEnd.Proofs.Grammar.Tree
import CalcFrontEnd.Proofs.Recognizer.Acceptance

namespace CalcFrontEnd

/-! ## What a stack notes down -/

/-- What a goal logs that reads a row of trees: the three sorts of statement frame the row's log. -/
def Goal.log (g : Goal) (row : Forest) : List Remark :=
  match g with
  | .assignment => row.log ++ [.assignmentRecognized]
  | .print => row.log ++ [.printRecognized]
  | .conditional => [.ifBegins] ++ row.log ++ [.ifEnds]
  | _ => row.log

/-- Whether a goal logs the log of its trees and nothing else. -/
def Goal.isQuiet : Goal → Bool
  | .assignment | .print | .conditional => false
  | _ => true

/-- Whether a symbol logs the log of its trees and nothing else. -/
def Symbol.isQuiet : Symbol → Bool
  | .goal g => g.isQuiet
  | .remark _ => false
  | _ => true

/-- Whether a symbol is a record of its own. -/
def Symbol.isComplete : Symbol → Bool
  | .complete _ _ => true
  | _ => false

/-- The record behind a right-hand side of a goal that covers the tokens from `start` up to `stop`. -/
def Goal.entry (g : Goal) (start stop : Nat) : List Derivation :=
  (g.constituent?.map fun constituent => ⟨constituent, start, stop⟩).toList

theorem Goal.of_not_isQuiet {g : Goal} (h : ¬g.isQuiet = true) :
    g = .assignment ∨ g = .print ∨ g = .conditional := by
  cases g <;> first | exact absurd rfl h | decide

theorem Goal.log_of_isQuiet {g : Goal} (h : g.isQuiet = true) (row : Forest) :
    g.log row = row.log := by
  cases g <;> first | rfl | cases h

/-- `Notes stack start row log record` — a stack that is worked off from token index `start` and reads
    the trees of `row` logs `log` and records `record`. -/
inductive Notes : List Symbol → Nat → Forest → List Remark → List Derivation → Prop where
  | nil {start : Nat} : Notes [] start .nil [] []
  | token {kind : Kind} {stack : List Symbol} {start : Nat} {row : Forest} {log : List Remark}
      {record : List Derivation} (h : Notes stack (start + 1) row log record) :
      Notes (.token kind :: stack) start (.leaf kind row) log record
  | goal {g : Goal} {stack : List Symbol} {start : Nat} {row rest : Forest} {log : List Remark}
      {record : List Derivation} (hletters : row.letters = g.form) (hvalid : row.Valid)
      (h : Notes stack (start + row.word.length) rest log record) :
      Notes (.goal g :: stack) start (row ++ rest) (g.log row ++ log) (row.record start ++ record)
  | remark {remark : Remark} {stack : List Symbol} {start : Nat} {row : Forest} {log : List Remark}
      {record : List Derivation} (h : Notes stack start row log record) :
      Notes (.remark remark :: stack) start row (remark :: log) record
  | complete {constituent : Constituent} {first : Nat} {stack : List Symbol} {start : Nat}
      {row : Forest} {log : List Remark} {record : List Derivation}
      (h : Notes stack start row log record) :
      Notes (.complete constituent first :: stack) start row log
        (⟨constituent, first, start⟩ :: record)

namespace Notes

variable {stack : List Symbol} {start : Nat} {row : Forest} {log : List Remark}
  {record : List Derivation}

/-- The trees hang from the letters of the stack. -/
theorem letters_eq (h : Notes stack start row log record) : row.letters = sententialForm stack := by
  induction h with
  | nil => rfl
  | token _ ih =>
    rw [sententialForm_cons, ← ih]
    rfl
  | goal hletters _ _ ih => rw [Forest.letters_append, ih, hletters, sententialForm_cons]; rfl
  | remark _ ih => exact ih
  | complete _ ih => exact ih

theorem valid (h : Notes stack start row log record) : row.Valid := by
  induction h with
  | nil => trivial
  | token _ ih => exact ih
  | goal _ hvalid _ ih => exact (Forest.valid_append _ _).mpr ⟨hvalid, ih⟩
  | remark _ ih => exact ih
  | complete _ ih => exact ih

/-- What two stacks note down one after the other. -/
theorem of_append {symbols stack : List Symbol} (h : Notes (symbols ++ stack) start row log record) :
    ∃ row₁ row₂ log₁ log₂ record₁ record₂,
      row = row₁ ++ row₂ ∧ log = log₁ ++ log₂ ∧ record = record₁ ++ record₂ ∧
      Notes symbols start row₁ log₁ record₁ ∧
      Notes stack (start + row₁.word.length) row₂ log₂ record₂ := by
  induction symbols generalizing start row log record with
  | nil => exact ⟨.nil, row, [], log, [], record, rfl, rfl, rfl, .nil, h⟩
  | cons symbol symbols ih =>
    cases h with
    | token h =>
      obtain ⟨row₁, row₂, log₁, log₂, record₁, record₂, rfl, rfl, rfl, h₁, h₂⟩ := ih h
      rw [Nat.add_assoc, Nat.add_comm 1] at h₂
      exact ⟨.leaf _ row₁, row₂, log₁, log₂, record₁, record₂, rfl, rfl, rfl, .token h₁, h₂⟩
    | goal hletters hvalid h =>
      obtain ⟨row₁, row₂, log₁, log₂, record₁, record₂, rfl, rfl, rfl, h₁, h₂⟩ := ih h
      rw [Nat.add_assoc, ← List.length_append, ← Forest.word_append] at h₂
      exact ⟨_, row₂, _, log₂, _, record₂, (Forest.append_assoc _ _ _).symm,
        (List.append_assoc _ _ _).symm, (List.append_assoc _ _ _).symm,
        .goal hletters hvalid h₁, h₂⟩
    | remark h =>
      obtain ⟨row₁, row₂, log₁, log₂, record₁, record₂, rfl, rfl, rfl, h₁, h₂⟩ := ih h
      exact ⟨row₁, row₂, _, log₂, record₁, record₂, rfl, rfl, rfl, .remark h₁, h₂⟩
    | complete h =>
      obtain ⟨row₁, row₂, log₁, log₂, record₁, record₂, rfl, rfl, rfl, h₁, h₂⟩ := ih h
      exact ⟨row₁, row₂, log₁, log₂, _, record₂, rfl, rfl, rfl, .complete h₁, h₂⟩

/-- Symbols that record nothing themselves note down the record of their trees. -/
theorem record_eq (h : Notes stack start row log record)
    (hstack : ∀ symbol ∈ stack, symbol.isComplete = false) : record = row.record start := by
  induction h with
  | nil => rfl
  | token _ ih => exact ih (List.forall_mem_cons.mp hstack).2
  | goal _ _ _ ih => rw [Forest.record_append, ih (List.forall_mem_cons.mp hstack).2]
  | remark _ ih => exact ih (List.forall_mem_cons.mp hstack).2
  | complete _ _ => cases (List.forall_mem_cons.mp hstack).1

/-- Symbols that log nothing themselves note down the log of their trees. -/
theorem log_eq (h : Notes stack start row log record)
    (hstack : ∀ symbol ∈ stack, symbol.isQuiet = true) : log = row.log := by
  induction h with
  | nil => rfl
  | token _ ih => exact ih (List.forall_mem_cons.mp hstack).2
  | @goal g _ _ row _ _ _ _ _ _ ih =>
    obtain ⟨hg, hstack⟩ := List.forall_mem_cons.mp hstack
    rw [Forest.log_append, ih hstack, Goal.log_of_isQuiet hg]
  | remark _ _ => cases (List.forall_mem_cons.mp hstack).1
  | complete _ ih => exact ih (List.forall_mem_cons.mp hstack).2

/-- A remark behind such symbols is logged behind the log of their trees. -/
theorem log_eq_concat (symbols : List Symbol) {remark : Remark}
    (h : Notes (symbols ++ [.remark remark]) start row log record)
    (hsymbols : ∀ symbol ∈ symbols, symbol.isQuiet = true) : log = row.log ++ [remark] := by
  obtain ⟨row₁, row₂, log₁, log₂, record₁, record₂, rfl, rfl, -, h₁, h₂⟩ := h.of_append
  cases h₂ with
  | remark h₂ =>
    cases h₂
    rw [h₁.log_eq hsymbols, Forest.append_nil]

/-- The record behind a right-hand side reads no tree and logs nothing. -/
theorem of_completion {g : Goal} {first : Nat} (h : Notes (g.completion first) start row log record) :
    row = .nil ∧ log = [] ∧ record = g.entry first start := by
  unfold Goal.completion at h
  unfold Goal.entry
  cases hconstituent : g.constituent? with
  | none =>
    simp only [hconstituent] at h
    cases h
    exact ⟨rfl, rfl, rfl⟩
  | some constituent =>
    simp only [hconstituent] at h
    cases h with
    | complete h =>
      cases h
      exact ⟨rfl, rfl, rfl⟩

end Notes

/-! ## One step -/

/-- The trees of a goal that is expanded to a right-hand side: a node over the trees of the right-hand
    side, or these trees themselves where the goal is no nonterminal. -/
def Goal.grow (g : Goal) (row : Forest) : Forest :=
  match g.form with
  | [.nonterminal n] => .node n row .nil
  | _ => row

/-- Goals are nonterminals, or stand for their form. -/
theorem Goal.grow_cases (g : Goal) :
    (∃ n, g.form = [.nonterminal n] ∧ g.alternatives = n.productions ∧
        ∀ row, g.grow row = .node n row .nil) ∨
      g.alternatives = [g.form] ∧ ∀ row, g.grow row = row := by
  cases g <;> first
    | exact Or.inl ⟨_, rfl, rfl, fun _ => rfl⟩
    | exact Or.inr ⟨rfl, fun _ => rfl⟩

theorem Goal.word_grow (g : Goal) (row : Forest) : (g.grow row).word = row.word := by
  rcases g.grow_cases with ⟨n, -, -, hgrow⟩ | ⟨-, hgrow⟩
  · rw [hgrow]
    exact List.append_nil _
  · rw [hgrow]

/-- From a valid row below an alternative a valid row for the goal grows. -/
theorem Goal.valid_grow {g : Goal} {row : Forest} (hletters : row.letters ∈ g.alternatives)
    (hvalid : row.Valid) : (g.grow row).letters = g.form ∧ (g.grow row).Valid := by
  rcases g.grow_cases with ⟨n, hform, halternatives, hgrow⟩ | ⟨halternatives, hgrow⟩
  · rw [hgrow, hform]
    rw [halternatives] at hletters
    exact ⟨rfl, hletters, hvalid, trivial⟩
  · rw [hgrow]
    rw [halternatives] at hletters
    exact ⟨List.mem_singleton.mp hletters, hvalid⟩

/-- A goal is recorded as its node is. -/
theorem Goal.record_grow (g : Goal) (row : Forest) (start : Nat) :
    (g.grow row).record start = row.record start ++ g.entry start (start + row.word.length) := by
  cases g <;> simp [grow, form, entry, constituent?, Forest.record, Nonterminal.entry,
    Nonterminal.constituent?]

/-- Right-hand sides record nothing themselves. -/
theorem isComplete_expand {g : Goal} {ahead : Kind} {symbols : List Symbol}
    (h : g.expand ahead = .ok symbols) : ∀ symbol ∈ symbols, symbol.isComplete = false := by
  have table : ∀ g ∈ Goal.all, ∀ ahead ∈ Kind.all, ∀ symbols ∈ (g.expand ahead).toOption,
      ∀ symbol ∈ symbols, symbol.isComplete = false := by decide +kernel
  exact table g g.mem_all ahead ahead.mem_all symbols (by rw [h]; rfl)

/-- Apart from statements, the right-hand sides of a quiet goal are quiet. -/
theorem isQuiet_expand {g : Goal} {ahead : Kind} {symbols : List Symbol}
    (h : g.expand ahead = .ok symbols) (hg : g.isQuiet = true) (hne : g ≠ .statement) :
    ∀ symbol ∈ symbols, symbol.isQuiet = true := by
  have table : ∀ g ∈ Goal.all, ∀ ahead ∈ Kind.all, ∀ symbols ∈ (g.expand ahead).toOption,
      g.isQuiet = true → g ≠ .statement → ∀ symbol ∈ symbols, symbol.isQuiet = true := by
    decide +kernel
  exact table g g.mem_all ahead ahead.mem_all symbols (by rw [h]; rfl) hg hne

/-- Only the node of a statement adds to the log. -/
theorem Goal.log_grow {g : Goal} (h : g ≠ .statement) (row : Forest) :
    (g.grow row).log = row.log := by
  cases g <;> first
    | exact absurd rfl h
    | simp [grow, form, Forest.log, Forest.opening, Forest.closing]

/-- A statement of one of the three sorts is logged as its node is: the first leaf tells the sort. -/
theorem log_statement {g : Goal} {start : Nat} {row : Forest} {log : List Remark}
    {record : List Derivation} (hg : g = .assignment ∨ g = .print ∨ g = .conditional)
    (h : Notes [.goal g] start row log record) : Goal.log .statement (Goal.grow .statement row) = log := by
  cases h with
  | @goal _ _ _ row rest _ _ hletters _ h =>
    cases h
    show Forest.opening .statement _ ++ Forest.log _ ++ Forest.closing .statement _ ++ [] = _
    rw [Forest.append_nil, List.append_nil, List.append_nil]
    cases row with
    | nil => rcases hg with rfl | rfl | rfl <;> cases hletters
    | node n below rest => rcases hg with rfl | rfl | rfl <;> cases (List.cons.inj hletters).1
    | leaf kind rest => rcases hg with rfl | rfl | rfl <;> cases (List.cons.inj hletters).1 <;> rfl

/-- **A right-hand side logs what the trees say that grow from it.** -/
theorem log_expand {g : Goal} {ahead : Kind} {symbols : List Symbol} {start : Nat} {row : Forest}
    {log : List Remark} {record : List Derivation} (hexpand : g.expand ahead = .ok symbols)
    (h : Notes symbols start row log record) : g.log (g.grow row) = log := by
  by_cases hquiet : g.isQuiet = true
  · by_cases hstatement : g = .statement
    · subst hstatement
      simp only [Goal.expand] at hexpand
      split at hexpand <;> cases hexpand <;> exact log_statement (by simp) h
    · rw [Goal.log_of_isQuiet hquiet, Goal.log_grow hstatement,
        h.log_eq (isQuiet_expand hexpand hquiet hstatement)]
  · -- the three sorts of statement log a remark at their end, one of them also behind its first token
    obtain rfl | rfl | rfl := Goal.of_not_isQuiet hquiet <;> cases hexpand
    · exact (h.log_eq_concat [.token .identifier, .token .assign, .goal .expr, .token .semicolon]
        (by decide)).symm
    · exact (h.log_eq_concat [.token .printWord, .token .leftParen, .goal .arg, .goal .argList,
        .token .rightParen, .token .semicolon] (by decide)).symm
    · cases h with
      | token h =>
        cases h with
        | remark h =>
          rw [h.log_eq_concat [.goal .condition, .token .colon, .goal .block, .goal .ifTail]
            (by decide)]
          rfl

/-- **What an expanded goal notes down, the goal notes down**: over the trees of the right-hand side
    stands a tree of the goal. -/
theorem notes_of_expand {g : Goal} {ahead : Kind} {symbols stack : List Symbol} {start : Nat}
    {row : Forest} {log : List Remark} {record : List Derivation}
    (hexpand : g.expand ahead = .ok symbols)
    (h : Notes (symbols ++ (g.completion start ++ stack)) start row log record) :
    ∃ grown, Notes (.goal g :: stack) start grown log record ∧ grown.word = row.word := by
  obtain ⟨row₁, row₂, log₁, log₂, record₁, record₂, rfl, rfl, rfl, h₁, h₂⟩ := h.of_append
  obtain ⟨row₂, row₃, log₂, log₃, record₂, record₃, rfl, rfl, rfl, h₂, h₃⟩ := h₂.of_append
  obtain ⟨rfl, rfl, hrecord₂⟩ := h₂.of_completion
  have hletters : row₁.letters ∈ g.alternatives := by
    rw [h₁.letters_eq]
    exact form_expand hexpand
  obtain ⟨hform, hvalid⟩ := Goal.valid_grow hletters h₁.valid
  have hlog : g.log (g.grow row₁) = log₁ := log_expand hexpand h₁
  have hrecord : (g.grow row₁).record start = record₁ ++ record₂ := by
    rw [Goal.record_grow, h₁.record_eq (isComplete_expand hexpand), hrecord₂]
  have hstart : start + row₁.word.length + Forest.nil.word.length =
      start + (g.grow row₁).word.length := by
    rw [Goal.word_grow]
    rfl
  rw [hstart] at h₃
  refine ⟨g.grow row₁ ++ row₃, ?_, ?_⟩
  · rw [← hlog, List.nil_append, ← List.append_assoc record₁, ← hrecord]
    exact .goal hform hvalid h₃
  · simp only [Forest.word_append, Goal.word_grow, Forest.nil_append]

/-! ## A whole run -/

namespace Recognizer

/-- **A run that gets through notes down the log and the record of the trees it reads.** -/
theorem run_notes (stack : List Symbol) (s : Recognizer) (h : (s.run stack).fault = none) :
    ∃ row log record, Notes stack s.position row log record ∧
      s.Passes row.word (s.run stack).state ∧
      (s.run stack).state.trace.toList = s.trace.toList ++ log ∧
      (s.run stack).state.derivations.toList = s.derivations.toList ++ record := by
  induction stack, s using run.induct with
  | case1 s =>
    rw [run_nil]
    exact ⟨.nil, [], [], .nil, .refl s, (List.append_nil _).symm, (List.append_nil _).symm⟩
  | case2 s stack ih =>
    rw [run_token rfl] at h ⊢
    obtain ⟨row, log, record, hnotes, hpass, htrace, hrecord⟩ := ih h
    exact ⟨_, log, record, .token hnotes, hpass.cons, htrace, hrecord⟩
  | case3 s kind stack hne =>
    rw [run_token_of_ne hne] at h
    cases h
  | case4 s g stack symbols hexpand ih =>
    rw [run_goal hexpand] at h ⊢
    obtain ⟨row, log, record, hnotes, hpass, htrace, hrecord⟩ := ih h
    obtain ⟨grown, hgrown, hword⟩ := notes_of_expand hexpand hnotes
    exact ⟨grown, log, record, hgrown, hword ▸ hpass, htrace, hrecord⟩
  | case5 s g stack fault hexpand =>
    rw [run_goal_of_error hexpand] at h
    cases h
  | case6 s remark stack ih =>
    rw [run_remark] at h ⊢
    obtain ⟨row, log, record, hnotes, hpass, htrace, hrecord⟩ := ih h
    refine ⟨row, remark :: log, record, .remark hnotes, hpass.of_log, ?_, hrecord⟩
    rw [htrace, toList_trace_log, List.append_assoc, List.singleton_append]
  | case7 s constituent first stack ih =>
    rw [run_complete] at h ⊢
    obtain ⟨row, log, record, hnotes, hpass, htrace, hrecord⟩ := ih h
    refine ⟨row, log, _, .complete hnotes, hpass.of_record, htrace, ?_⟩
    rw [hrecord, toList_derivations_record, List.append_assoc, List.singleton_append]

/-- A run for a program that gets through reads a block and an end token, and notes down the log and
    the record of the block's tree. -/
theorem recognize_notes {s : Recognizer} (hposition : s.position = 0)
    (h : (s.recognize .program).fault = none) :
    ∃ tree : Tree .block, s.Passes (tree.word ++ [.endOfFile]) (s.recognize .program).state ∧
      (s.recognize .program).state.trace.toList = s.trace.toList ++ tree.log ∧
      (s.recognize .program).state.derivations.toList = s.derivations.toList ++ tree.record := by
  have hexpand : Goal.program.expand s.lookahead.kind = .ok [.goal .block, .token .endOfFile] := rfl
  have hrun : s.recognize .program = s.run [.goal .block, .token .endOfFile] := run_goal hexpand []
  rw [hrun] at h ⊢
  obtain ⟨row, log, record, hnotes, hpass, htrace, hrecord⟩ := run_notes _ s h
  cases hnotes with
  | goal hletters hvalid hnotes =>
    cases hnotes with
    | token hnotes =>
      cases hnotes
      obtain ⟨tree, rfl⟩ := Tree.exists_forest_eq hletters hvalid
      refine ⟨tree, ?_, ?_, ?_⟩
      · rw [Forest.word_append] at hpass
        exact hpass
      · rw [htrace, List.append_nil]
        rfl
      · rw [hrecord, hposition, List.append_nil]
        rfl

/-- Where a word without an end token lies ahead, and an end token behind it, the word is what stands
    in the list up to its first end token. -/
theorem takeWhile_of_kindsAhead {s : Recognizer} {word : List Kind}
    (h : s.kindsAhead (word.length + 1) = word ++ [.endOfFile]) (hword : Kind.endOfFile ∉ word) :
    (s.rest.map Token.kind).takeWhile (· != .endOfFile) = word := by
  obtain ⟨hahead, hnext⟩ := kindsAhead_eq_concat_iff.mp h
  have hlength := length_le_of_kindsAhead hahead hword
  have hfront : (s.rest.take word.length).map Token.kind = word := by
    rw [← kindsAhead_of_le hlength, hahead]
  have hsplit : s.rest.map Token.kind = word ++ (s.rest.drop word.length).map Token.kind := by
    calc s.rest.map Token.kind
        = (s.rest.take word.length ++ s.rest.drop word.length).map Token.kind := by
          rw [List.take_append_drop]
      _ = word ++ (s.rest.drop word.length).map Token.kind := by rw [List.map_append, hfront]
  have hbehind : ((s.rest.drop word.length).map Token.kind).takeWhile (· != .endOfFile) = [] := by
    rw [kindAt, ← List.head?_drop] at hnext
    cases hrest : s.rest.drop word.length with
    | nil => rfl
    | cons token tokens =>
      rw [hrest] at hnext
      have hend : token.kind = .endOfFile := hnext
      simp [hend]
  have hall : ∀ kind ∈ word, (kind != .endOfFile) = true := by
    intro kind hmem
    exact bne_iff_ne.mpr fun heq => hword (heq ▸ hmem)
  rw [hsplit, List.takeWhile_append_of_pos hall, hbehind, List.append_nil]

end Recognizer

/-! ## Accepted token lists -/

/-- The kinds of the tokens in front of the first end token. -/
def kindsBeforeEnd (tokens : List Token) : List Kind :=
  (tokens.map Token.kind).takeWhile (· != .endOfFile)

/-- **The record and the trace of an accepted token list are those of its derivation tree.**  The
    tokens in front of the end are the word of a block's tree.  For each such tree the derivation
    record is the list of its nodes in post-order, and the trace is the log of its statements; and
    there is no other tree of the same word. -/
theorem record_of_accepted {tokens : List Token} (h : (Outcome.ofTokens tokens).failure = none) :
    (∃ tree : Tree .block, tree.word = kindsBeforeEnd tokens) ∧
      ∀ tree : Tree .block, tree.word = kindsBeforeEnd tokens →
        (Outcome.ofTokens tokens).derivations = tree.record ∧
        (Outcome.ofTokens tokens).trace = tree.log ∧
        ∀ other : Tree .block, other.word = tree.word → other = tree := by
  have hunique : ∀ tree other : Tree .block, other.word = tree.word → other = tree :=
    fun tree other hword => Tree.eq_of_word_eq hword (by decide)
  obtain ⟨read, hpass, htrace, hrecord⟩ :=
    Recognizer.recognize_notes rfl (Recognizer.Ending.programError?_eq_none_iff.mp h).1
  have hword : read.word = kindsBeforeEnd tokens := by
    have hkinds := hpass.kinds
    rw [List.length_append] at hkinds
    have hinner : Kind.endOfFile ∉ read.word := read.yields.endOfFile_not_mem (by decide)
    exact (Recognizer.takeWhile_of_kindsAhead hkinds hinner).symm
  refine ⟨⟨read, hword⟩, ?_⟩
  intro tree htree
  obtain rfl : tree = read := hunique read tree (by rw [htree, hword])
  exact ⟨hrecord, htrace, hunique tree⟩

/-- The tokens of `x := - 2 ** 2 ;`. -/
def negatedPower : List Token :=
  [⟨.identifier, "x", 1⟩, ⟨.assign, ":=", 1⟩, ⟨.minus, "-", 1⟩, ⟨.number, "2", 1⟩, ⟨.raise, "**", 1⟩,
   ⟨.number, "2", 1⟩, ⟨.semicolon, ";", 1⟩, .endOfFile 1]

/-- Their tree: the sign stands below the first of the two atoms, and the power above both. -/
def negatedPowerTree : Tree .block where
  below :=
    .node .statement
      (.leaf .identifier (.leaf .assign
        (.node .expr
          (.node .term
            (.node .factor
              (.node .atom (.leaf .minus (.node .value (.leaf .number .nil) .nil))
                (.node .atomList
                  (.leaf .raise
                    (.node .atom (.node .value (.leaf .number .nil) .nil)
                      (.node .atomList .nil .nil)))
                  .nil))
              (.node .factorList .nil .nil))
            (.node .termList .nil .nil))
          (.leaf .semicolon .nil))))
      (.node .block .nil .nil)
  production := by decide
  valid := by decide

/-- The tokens are accepted, and the record shows that the sign binds tighter than the power. -/
theorem record_of_accepted_negatedPower :
    (Outcome.ofTokens negatedPower).failure = none ∧
      (Outcome.ofTokens negatedPower).derivations =
        [⟨.value, 3, 4⟩, ⟨.atom, 2, 4⟩, ⟨.value, 5, 6⟩, ⟨.atom, 5, 6⟩, ⟨.factor, 2, 6⟩, ⟨.term, 2, 6⟩,
         ⟨.expr, 2, 6⟩, ⟨.statement, 0, 7⟩] ∧
      (Outcome.ofTokens negatedPower).trace = [.assignmentRecognized] := by
  have haccepted : (Outcome.ofTokens negatedPower).failure = none := by
    refine (Recognizer.programError?_recognize_iff _).mpr ⟨_, negatedPowerTree.yields, ?_⟩
    decide
  obtain ⟨hrecord, htrace, -⟩ := (record_of_accepted haccepted).2 negatedPowerTree (by decide)
  exact ⟨haccepted, hrecord, htrace⟩

end CalcFrontEnd
