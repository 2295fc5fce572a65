/-
  CORRECT PREFIXES — an error is reported at the first token that fits no program.

  1. **Specification** — a list of kinds is `Viable` if some program starts with it.

  2. **What was passed is viable** — what is left on the stack when a run stops has a word, and that word
     completes what was passed (`Stops.completes`).

  3. **Crux** — `run_refuses`: no word of the stack a run started with goes on with the token at which it
     stopped.  A word that did would pick the same right-hand sides as the tokens did, step by step,
     since one token of lookahead is enough; so it would come to the misfit too.

  4. **Tokens behind a program** — a program holds one end token, its last.  With anything behind it, it
     is no start of a program any more (`not_viable_of_program`).

  5. **Result** — `failure_at_first_offender`.
-/
import CalcFrontEnd.Proofs.Recognizer.Acceptance
import CalcFrontEnd.Proofs.Recognizer.Blindness

namespace CalcFrontEnd

/-- `Viable kinds` — some program starts with the kinds. -/
def Viable (kinds : List Kind) : Prop :=
  ∃ word, Nonterminal.program.Yields word ∧ kinds <+: word

namespace Recognizer

/-! ## Where a run stops -/

/-- The first of the passed kinds is the one that the run saw ahead. -/
theorem Passes.headD_eq {s t : Recognizer} {word : List Kind} (h : s.Passes word t) :
    word.headD t.lookahead.kind = s.lookahead.kind := by
  cases word with
  | nil =>
    have hrest : t.rest = s.rest := h.rest
    show t.lookahead.kind = s.lookahead.kind
    rw [kind_lookahead, kind_lookahead, hrest]
  | cons kind word => exact (List.head_eq_of_cons_eq h.kinds).symm

/-- Two recognizers determine what was passed between them. -/
theorem Passes.word_eq {s t : Recognizer} {word other : List Kind} (h : s.Passes word t)
    (h' : s.Passes other t) : word = other := by
  have hlength : word.length = other.length := by
    have hposition := h.position
    have hposition' := h'.position
    omega
  rw [← h.kinds, ← h'.kinds, hlength]

/-- At a misfit no word of the stack goes on with the next token. -/
theorem Misfit.refuses {s : Recognizer} {stack : List Symbol} {fault : ParseFault}
    (h : s.Misfit stack fault) {word : List Kind} (hword : Derives (sententialForm stack) word) :
    ¬[s.lookahead.kind] <+: word := by
  rintro ⟨rest, rfl⟩
  exact h.headD_ne hword rfl

/-- **A run goes no further than its words do**: behind what was passed, no word of its stack goes on
    with the token at which the run stopped. -/
theorem run_refuses (stack : List Symbol) (s : Recognizer) {fault : ParseFault}
    (h : (s.run stack).fault = some fault) :
    ∃ passed, s.Passes passed (s.run stack).state ∧
      ∀ {word next}, Derives (sententialForm stack) word → Settles (sententialForm stack) next →
        ¬passed ++ [(s.run stack).state.lookahead.kind] <+: word := by
  induction stack, s using run.induct with
  | case1 s =>
    rw [run_nil] at h
    cases h
  | case2 s stack ih =>
    rw [run_token rfl] at h ⊢
    obtain ⟨passed, hpass, hrefuses⟩ := ih h
    refine ⟨_, hpass.cons, ?_⟩
    intro word next hword hnext hstart
    obtain ⟨rest, rfl, hrest⟩ := hword.of_token
    exact hrefuses hrest hnext (List.cons_prefix_cons.mp hstart).2
  | case3 s kind stack hne =>
    rw [run_token_of_ne hne]
    refine ⟨[], .refl s, ?_⟩
    intro word next hword _
    exact (Misfit.token hne).refuses hword
  | case4 s g stack symbols hexpand ih =>
    rw [run_goal hexpand] at h ⊢
    obtain ⟨passed, hpass, hrefuses⟩ := ih h
    refine ⟨passed, hpass, ?_⟩
    intro word next hword hnext hstart
    -- the word starts as the tokens do, so it picks the same right-hand side
    have hhead : word.headD next = s.lookahead.kind := by
      obtain ⟨rest, rfl⟩ := hstart
      rw [← hpass.headD_eq]
      cases passed <;> rfl
    obtain ⟨others, hothers, hderives, hsettles⟩ := expand_of_derives hword hnext
    rw [hhead, hexpand] at hothers
    cases hothers
    have hform : sententialForm (symbols ++ (g.completion s.position ++ stack)) =
        sententialForm symbols ++ sententialForm stack := by simp
    rw [hform] at hrefuses
    exact hrefuses hderives hsettles hstart
  | case5 s g stack fault hexpand =>
    rw [run_goal_of_error hexpand]
    refine ⟨[], .refl s, ?_⟩
    intro word next hword _
    exact (Misfit.goal hexpand).refuses hword
  | case6 s remark stack ih =>
    rw [run_remark] at h ⊢
    obtain ⟨passed, hpass, hrefuses⟩ := ih h
    exact ⟨passed, hpass.of_log, hrefuses⟩
  | case7 s constituent start stack ih =>
    rw [run_complete] at h ⊢
    obtain ⟨passed, hpass, hrefuses⟩ := ih h
    exact ⟨passed, hpass.of_record, hrefuses⟩

/-- What a run for a program has passed when it stops is viable, and is not any more with the token at
    which it stopped. -/
theorem viable_of_fault {s : Recognizer} {fault : ParseFault} {word : List Kind}
    (h : (s.recognize .program).fault = some fault)
    (hpass : s.Passes word (s.recognize .program).state) :
    Viable word ∧ ¬Viable (word ++ [(s.recognize .program).state.lookahead.kind]) := by
  constructor
  · obtain ⟨passed, left, hstops⟩ := run_stops [.goal .program] s
    obtain rfl : word = passed := hpass.word_eq hstops.passes
    obtain ⟨rest, hrest⟩ := exists_derives (sententialForm left)
    exact ⟨word ++ rest, hstops.completes hrest, List.prefix_append _ _⟩
  · obtain ⟨passed, hpassed, hrefuses⟩ := run_refuses [.goal .program] s h
    obtain rfl : word = passed := hpass.word_eq hpassed
    rintro ⟨full, hfull, hstart⟩
    -- nothing prolongs a program
    have hsettles : Settles (sententialForm [.goal .program]) .endOfFile :=
      ⟨fun _ _ => List.not_mem_nil, trivial⟩
    exact hrefuses hfull hsettles hstart

end Recognizer

/-- A program with anything behind it is not viable. -/
theorem not_viable_of_program {word : List Kind} (h : Nonterminal.program.Yields word) (kind : Kind) :
    ¬Viable (word ++ [kind]) := by
  rintro ⟨full, hfull, hstart⟩
  obtain ⟨u, rfl, -⟩ := yields_program_iff.mp h
  obtain ⟨v, rfl, hv⟩ := yields_program_iff.mp hfull
  have hinner : Kind.endOfFile ∉ v := hv.endOfFile_not_mem (by decide)
  -- the first end token would stand inside the block
  have hmem : Kind.endOfFile ∈ v := by
    rcases List.prefix_concat_iff.mp hstart with heq | hstart
    · rw [← (List.append_inj' heq rfl).1]
      exact List.mem_append_right _ (List.mem_singleton.mpr rfl)
    · exact hstart.subset (by simp)
  exact hinner hmem

/-- The end token alone is a program. -/
theorem viable_endOfFile : Viable [.endOfFile] := by
  have hempty : Nonterminal.block.Yields [] := .expand (by decide) .nil .nil
  exact ⟨_, yields_program_iff.mpr ⟨[], rfl, hempty⟩, List.prefix_rfl⟩

namespace Outcome

open Recognizer

/-- Where recognizing a token list fails, what was passed lies in the list and is viable, and is not
    any more with the next token. -/
theorem viable_of_failure {tokens : List Token} {error : ParseError}
    (h : (ofTokens tokens).failure = some error) :
    ∃ word, (Recognizer.ofTokens tokens).Passes word (programEnding tokens).state ∧
      word.length ≤ tokens.length ∧ Viable word ∧
      ¬Viable (word ++ [(programEnding tokens).state.lookahead.kind]) := by
  rcases (Ending.eq_error_of_programError? h).2 with hfault | ⟨hfault, hne⟩
  · -- the run's own fault: no end token was passed
    obtain ⟨word, hword, hpass⟩ := endOfFile_not_mem_of_fault hfault
    exact ⟨word, hpass, length_le_of_kindsAhead hpass.kinds hword, viable_of_fault hfault hpass⟩
  · -- tokens behind a program: the next one is no end token, so it is in the list
    obtain ⟨word, hword, hpass⟩ := block_of_recognize hfault
    have hprogram : Nonterminal.program.Yields (word ++ [.endOfFile]) :=
      yields_program_iff.mpr ⟨word, rfl, hword⟩
    refine ⟨_, hpass, ?_, ⟨_, hprogram, List.prefix_rfl⟩, not_viable_of_program hprogram _⟩
    rcases Nat.lt_or_ge (word.length + 1) tokens.length with hlt | hge
    · rw [List.length_append]
      exact Nat.le_of_lt hlt
    · exact absurd (kind_lookahead_of_passes hpass ▸ kindAt_of_length_le hge) hne

/-- **Errors are reported at the first token that fits no program.**  Recognizing stops at a token of
    the list or at its end.  The kinds in front of that place are the start of some program, with the
    kind at that place, which is an end token behind the list, they are the start of none; and the
    line cited is that of the token there, or of the last token if recognizing stops at the end. -/
theorem failure_at_first_offender {tokens : List Token} {error : ParseError}
    (h : (ofTokens tokens).failure = some error) :
    stopIndex tokens ≤ tokens.length ∧
      Viable ((tokens.take (stopIndex tokens)).map Token.kind) ∧
      ¬Viable ((tokens.take (stopIndex tokens)).map Token.kind ++
        [(tokens[stopIndex tokens]?.map Token.kind).getD .endOfFile]) ∧
      ∃ token, error.line = token.line ∧
        (tokens[stopIndex tokens]? = some token ∨
          stopIndex tokens = tokens.length ∧ tokens.getLast? = some token) := by
  obtain ⟨word, hpass, hlength, hviable, hnot⟩ := viable_of_failure h
  have hstop : stopIndex tokens = word.length := by
    have hposition : stopIndex tokens = 0 + word.length := hpass.position
    omega
  have hword : (tokens.take word.length).map Token.kind = word := by
    have hkinds := hpass.kinds
    rw [kindsAhead_of_le hlength] at hkinds
    exact hkinds
  have hnext : (programEnding tokens).state.lookahead.kind =
      (tokens[word.length]?.map Token.kind).getD .endOfFile := by
    rw [kind_lookahead, hpass.rest, List.head?_drop]
    rfl
  have hline := line_of_failure h
  rw [hnext] at hnot
  rw [hstop] at hline ⊢
  rw [hword]
  refine ⟨hlength, hviable, hnot, ?_⟩
  cases htoken : tokens[word.length]? with
  | some token =>
    rw [htoken] at hline
    exact ⟨token, hline, Or.inl rfl⟩
  | none =>
    rw [htoken] at hline hnot
    have hend : word.length = tokens.length :=
      Nat.le_antisymm hlength (List.getElem?_eq_none_iff.mp htoken)
    cases hlast : tokens.getLast? with
    | some token =>
      rw [hlast] at hline
      exact ⟨token, hline, Or.inr ⟨hend, rfl⟩⟩
    | none =>
      -- on the empty list the end token comes at once, and that is a program
      obtain rfl := List.getLast?_eq_none_iff.mp hlast
      obtain rfl : word = [] := List.length_eq_zero_iff.mp hend
      exact absurd viable_endOfFile hnot

/-- The tokens of `x := 1`, with the number on a line of its own. -/
def unfinishedAssignment : List Token :=
  [⟨.identifier, "x", 1⟩, ⟨.assign, ":=", 1⟩, ⟨.number, "1", 2⟩]

/-- They could go on to a program, but the list is at its end there. -/
theorem failure_at_first_offender_unfinished :
    (ofTokens unfinishedAssignment).failure = some ⟨.expectedToken .semicolon, 2⟩ ∧
      Viable [.identifier, .assign, .number] ∧
      ¬Viable [.identifier, .assign, .number, .endOfFile] := by
  have hending : programEnding unfinishedAssignment =
      ⟨⟨[], 3, 2, #[], #[⟨.value, 2, 3⟩, ⟨.atom, 2, 3⟩, ⟨.factor, 2, 3⟩, ⟨.term, 2, 3⟩, ⟨.expr, 2, 3⟩]⟩,
        some (.expectedToken .semicolon)⟩ := by
    simp [programEnding, unfinishedAssignment, Recognizer.ofTokens]
  have hfailure : (ofTokens unfinishedAssignment).failure = some ⟨.expectedToken .semicolon, 2⟩ := by
    show (programEnding unfinishedAssignment).programError? = _
    rw [hending]
    rfl
  have hstop : stopIndex unfinishedAssignment = 3 := by rw [stopIndex, hending]
  obtain ⟨-, hviable, hnot, -⟩ := failure_at_first_offender hfailure
  rw [hstop] at hviable hnot
  exact ⟨hfailure, hviable, hnot⟩

end Outcome

end CalcFrontEnd
