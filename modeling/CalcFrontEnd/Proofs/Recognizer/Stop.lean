/-
  STOPS — where a run comes to a stop, and what it has read by then.

  1. **Specification** — a run stops at an empty stack, or at a symbol that does not fit the next token
     (`Misfit`).  What each of its steps keeps holds there too (`Preserved.run`): every invariant of
     runs is proved from that.  `run_stops` ties the stack that is left to the stack it started with:
     what has been passed, followed by any word of what is left, is a word of the start.

  2. **Soundness** — at an empty stack nothing is left, so what has been passed is a word itself
     (`derives_of_run`).

  3. **Completeness** — a word of the stack's form that lies ahead is passed without a misfit
     (`run_of_derives`).

  4. **Misfits** — no word of what is left starts with the token at which a run stops
     (`Misfit.headD_ne`).  In a run for a program it follows that an end token is never passed before a
     misfit (`endOfFile_not_mem_of_fault`): such a run stops inside the list or at its end.
-/
import CalcFrontEnd.Proofs.Recognizer.Form
import CalcFrontEnd.Proofs.Recognizer.Run

namespace CalcFrontEnd.Recognizer

/-- `s.Misfit stack fault` — the symbol on top of the stack does not fit the next token. -/
inductive Misfit (s : Recognizer) : List Symbol → ParseFault → Prop where
  | token {kind : Kind} {stack : List Symbol} (h : s.lookahead.kind ≠ kind) :
      Misfit s (.token kind :: stack) (.expectedToken kind)
  | goal {g : Goal} {stack : List Symbol} {fault : ParseFault}
      (h : g.expand s.lookahead.kind = .error fault) : Misfit s (.goal g :: stack) fault

/-- `Preserved inv` — each step of a run keeps `inv passed stack s`, which is said of the kinds that have
    been passed, the stack that is left, and the recognizer. -/
structure Preserved (inv : List Kind → List Symbol → Recognizer → Prop) : Prop where
  advance : ∀ {passed stack s}, inv passed (.token s.lookahead.kind :: stack) s →
    inv (passed ++ [s.lookahead.kind]) stack s.advance
  expand : ∀ {passed g stack s symbols}, inv passed (.goal g :: stack) s →
    g.expand s.lookahead.kind = .ok symbols →
    inv passed (symbols ++ (g.completion s.position ++ stack)) s
  log : ∀ {passed remark stack s}, inv passed (.remark remark :: stack) s →
    inv passed stack (s.log remark)
  record : ∀ {passed constituent start stack s}, inv passed (.complete constituent start :: stack) s →
    inv passed stack (s.record constituent start)

/-- **What each step keeps, a run keeps** up to the place where it stops: at an empty stack, or at a
    misfit. -/
theorem Preserved.run {inv : List Kind → List Symbol → Recognizer → Prop} (h : Preserved inv)
    (stack : List Symbol) (s : Recognizer) (passed : List Kind) (hs : inv passed stack s) :
    ∃ word left, s.Passes word (s.run stack).state ∧ inv (passed ++ word) left (s.run stack).state ∧
      ((s.run stack).fault = none → left = []) ∧
      ∀ {fault}, (s.run stack).fault = some fault → (s.run stack).state.Misfit left fault := by
  induction stack, s using run.induct generalizing passed with
  | case1 s =>
    rw [run_nil]
    rw [← List.append_nil passed] at hs
    exact ⟨[], [], .refl s, hs, fun _ => rfl, (fun h => nomatch h)⟩
  | case2 s stack ih =>
    obtain ⟨word, left, hpass, hinv, hstop⟩ := ih _ (h.advance hs)
    rw [List.append_assoc] at hinv
    rw [run_token rfl]
    exact ⟨_, left, hpass.cons, hinv, hstop⟩
  | case3 s kind stack hne =>
    rw [run_token_of_ne hne]
    rw [← List.append_nil passed] at hs
    refine ⟨[], _, .refl s, hs, (fun h => nomatch h), ?_⟩
    rintro fault ⟨⟩
    exact .token hne
  | case4 s g stack symbols hexpand ih =>
    rw [run_goal hexpand]
    exact ih passed (h.expand hs hexpand)
  | case5 s g stack fault hexpand =>
    rw [run_goal_of_error hexpand]
    rw [← List.append_nil passed] at hs
    refine ⟨[], _, .refl s, hs, (fun h => nomatch h), ?_⟩
    rintro fault ⟨⟩
    exact .goal hexpand
  | case6 s remark stack ih =>
    obtain ⟨word, left, hpass, hstop⟩ := ih passed (h.log hs)
    rw [run_remark]
    exact ⟨word, left, hpass.of_log, hstop⟩
  | case7 s constituent start stack ih =>
    obtain ⟨word, left, hpass, hstop⟩ := ih passed (h.record hs)
    rw [run_complete]
    exact ⟨word, left, hpass.of_record, hstop⟩

/-! ## What is left -/

/-- `s.Stops stack ending word left` — a run that works off `stack` passes `word` and ends with `left`
    still on the stack: what is left would complete the word, and it is empty or does not fit. -/
structure Stops (s : Recognizer) (stack : List Symbol) (ending : Ending) (word : List Kind)
    (left : List Symbol) : Prop where
  passes : s.Passes word ending.state
  completes : ∀ {rest}, Derives (sententialForm left) rest →
    Derives (sententialForm stack) (word ++ rest)
  finished : ending.fault = none → left = []
  misfit : ∀ {fault}, ending.fault = some fault → ending.state.Misfit left fault

/-- No step loses a word: what is left always completes what was passed. -/
theorem preserved_completes (form : List Letter) :
    Preserved fun passed left _ => ∀ {rest}, Derives (sententialForm left) rest →
      Derives form (passed ++ rest) where
  advance := by
    intro passed stack s h rest hrest
    rw [List.append_assoc]
    exact h (.token s.lookahead.kind hrest)
  expand := by
    intro passed g stack s symbols h hexpand rest hrest
    simp only [sententialForm_append, sententialForm_completion, List.nil_append] at hrest
    exact h (derives_of_expand hexpand hrest)
  log := fun h => h
  record := fun h => h

/-- **Every run comes to a stop**, at an empty stack or at a misfit. -/
theorem run_stops (stack : List Symbol) (s : Recognizer) :
    ∃ word left, s.Stops stack (s.run stack) word left := by
  obtain ⟨word, left, hpass, hcompletes, hfinished, hmisfit⟩ :=
    (preserved_completes (sententialForm stack)).run stack s [] fun h => h
  exact ⟨word, left, hpass, hcompletes, hfinished, hmisfit⟩

/-! ## Soundness and completeness -/

/-- **Soundness**: what a run without a fault has passed is a word of its stack's form. -/
theorem derives_of_run {stack : List Symbol} {s : Recognizer} (h : (s.run stack).fault = none) :
    ∃ word, Derives (sententialForm stack) word ∧ s.Passes word (s.run stack).state := by
  obtain ⟨word, left, hstops⟩ := run_stops stack s
  have hleft : left = [] := hstops.finished h
  subst hleft
  have hword := hstops.completes .nil
  rw [List.append_nil] at hword
  exact ⟨word, hword, hstops.passes⟩

/-- **Completeness**: a word of the stack's form that lies ahead is passed, if what comes behind it
    prolongs nothing. -/
theorem run_of_derives (stack : List Symbol) (s : Recognizer) {word : List Kind} {next : Kind}
    (hword : Derives (sententialForm stack) word) (hnext : Settles (sententialForm stack) next)
    (hahead : s.kindsAhead (word.length + 1) = word ++ [next]) :
    (s.run stack).fault = none ∧ s.Passes word (s.run stack).state := by
  induction stack, s using run.induct generalizing word with
  | case1 s =>
    cases hword
    rw [run_nil]
    exact ⟨rfl, .refl s⟩
  | case2 s stack ih =>
    obtain ⟨rest, rfl, hrest⟩ := hword.of_token
    have htail : s.advance.kindsAhead (rest.length + 1) = rest ++ [next] := by
      simpa [kindsAhead] using hahead
    rw [run_token rfl]
    obtain ⟨hfault, hpass⟩ := ih hrest hnext htail
    exact ⟨hfault, hpass.cons⟩
  | case3 s kind stack hne =>
    obtain ⟨rest, rfl, -⟩ := hword.of_token
    exact absurd (kind_lookahead_of_kindsAhead hahead) hne
  | case4 s g stack symbols hexpand ih =>
    obtain ⟨others, hothers, hderives, hsettles⟩ := expand_of_derives hword hnext
    rw [← kind_lookahead_of_kindsAhead hahead, hexpand] at hothers
    cases hothers
    have hform : sententialForm (symbols ++ (g.completion s.position ++ stack)) =
        sententialForm symbols ++ sententialForm stack := by simp
    rw [run_goal hexpand]
    rw [hform] at ih
    exact ih hderives hsettles hahead
  | case5 s g stack fault hexpand =>
    obtain ⟨others, hothers, -⟩ := expand_of_derives hword hnext
    rw [← kind_lookahead_of_kindsAhead hahead, hexpand] at hothers
    cases hothers
  | case6 s remark stack ih =>
    rw [← kindsAhead_log s remark] at hahead
    rw [run_remark]
    obtain ⟨hfault, hpass⟩ := ih hword hnext hahead
    exact ⟨hfault, hpass.of_log⟩
  | case7 s constituent start stack ih =>
    rw [← kindsAhead_record s constituent start] at hahead
    rw [run_complete]
    obtain ⟨hfault, hpass⟩ := ih hword hnext hahead
    exact ⟨hfault, hpass.of_record⟩

/-! ## Misfits -/

/-- A fault is a misfit. -/
theorem misfit_of_fault {stack : List Symbol} {s : Recognizer} {fault : ParseFault}
    (h : (s.run stack).fault = some fault) : ∃ left, (s.run stack).state.Misfit left fault := by
  obtain ⟨word, left, hstops⟩ := run_stops stack s
  exact ⟨left, hstops.misfit h⟩

/-- **A misfit is one**: no word of the stack starts with the next token, nor is one empty. -/
theorem Misfit.headD_ne {s : Recognizer} {stack : List Symbol} {fault : ParseFault}
    (h : s.Misfit stack fault) {word : List Kind} (hword : Derives (sententialForm stack) word) :
    word.headD s.lookahead.kind ≠ s.lookahead.kind := by
  intro hhead
  cases h with
  | token hne =>
    obtain ⟨rest, rfl, -⟩ := hword.of_token
    exact hne hhead.symm
  | goal herror =>
    have hmem := derives_opener hword s.lookahead.kind
    rw [hhead, sententialForm_cons] at hmem
    obtain ⟨next, -, hmem⟩ := mem_openers_append.mp hmem
    exact not_mem_openers_of_error herror next hmem

/-- A misfit is no fault of a loader, nor one of tokens behind a program. -/
theorem Misfit.fault_ne {s : Recognizer} {stack : List Symbol} {fault : ParseFault}
    (h : s.Misfit stack fault) :
    fault ≠ .trailingTokens ∧ ∀ name, fault ≠ .unknownTokenKind name := by
  cases h with
  | token hne => exact ⟨(fun h => nomatch h), fun _ h => nomatch h⟩
  | goal herror =>
    have hmem := mem_faults_of_expand herror
    constructor
    · rintro rfl
      exact absurd hmem (by decide)
    · rintro name rfl
      simp [Goal.faults] at hmem

/-- A run for a program that stops at a misfit has passed no end token. -/
theorem endOfFile_not_mem_of_fault {s : Recognizer} {fault : ParseFault}
    (h : (s.recognize .program).fault = some fault) :
    ∃ word, Kind.endOfFile ∉ word ∧ s.Passes word (s.recognize .program).state := by
  obtain ⟨word, left, hstops⟩ := run_stops [.goal .program] s
  refine ⟨word, ?_, hstops.passes⟩
  -- what is left can be completed, and not by nothing
  obtain ⟨rest, hrest⟩ := exists_derives (sententialForm left)
  have hne : rest ≠ [] := by
    rintro rfl
    exact (hstops.misfit h).headD_ne hrest rfl
  obtain ⟨u, hu, hblock⟩ := yields_program_iff.mp (hstops.completes hrest)
  -- so the end token of the completed program stands in the completion
  obtain ⟨init, last, rfl⟩ : ∃ init last, rest = init ++ [last] :=
    ⟨_, _, (List.dropLast_concat_getLast hne).symm⟩
  rw [← List.append_assoc] at hu
  have hinit : word ++ init = u := (List.append_inj' hu rfl).1
  intro hmem
  have hinner : Kind.endOfFile ∉ u := hblock.endOfFile_not_mem (by decide)
  exact hinner (hinit ▸ List.mem_append_left _ hmem)

end CalcFrontEnd.Recognizer
