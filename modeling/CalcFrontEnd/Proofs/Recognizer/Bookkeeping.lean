/-
  BOOKKEEPING — what a caller can rely on, whatever has been done with a recognizer.

  1. **Data** — `performAll` carries out operations in order, those that fail included.

  2. **The next token** — a state has three fields that say what is ahead: the tokens left, the position, and
     the last line.  They stay in step, so the next token is the one at the position, and behind the
     list it is an end token on the last line (`Reachable.lookahead_eq`, `Reachable.lookahead_behind`).

  3. **Growth** — `s.Grows t`: position, trace and record of `t` are those of `s` or go on behind them.
     Each step of a run keeps this, and so does every operation (`grows_perform`).

  4. **The end of the list** — only an end token can be consumed there.  A stack that derives no end token
     passes none, even where it fails (`endOfFile_not_mem_of_inner`), hence it stays inside the list
     (`position_run_le`).  All symbols but two are of that sort.

  5. **Result** — `performAll_invariant`.
-/
import CalcFrontEnd.Proofs.Recognizer.Entry

namespace CalcFrontEnd

namespace Recognizer

/-- The recognizer after operations in order, whether they fail or not. -/
def performAll (s : Recognizer) (operations : List Operation) : Recognizer :=
  operations.foldl perform s

theorem Reachable.performAll {tokens : List Token} {s : Recognizer} (h : Reachable tokens s)
    (operations : List Operation) : Reachable tokens (s.performAll operations) := by
  induction operations generalizing s with
  | nil => exact h
  | cons operation operations ih => exact ih (h.perform operation)

/-! ## The next token -/

/-- No run changes the line that end tokens behind the list are on. -/
theorem lastLine_run (stack : List Symbol) (s : Recognizer) :
    (s.run stack).state.lastLine = s.lastLine := by
  obtain ⟨word, left, hstops⟩ := run_stops stack s
  exact hstops.passes.lastLine

theorem lastLine_perform (s : Recognizer) (operation : Operation) :
    (s.perform operation).lastLine = s.lastLine := by
  cases operation with
  | advance => rfl
  | expect kind => exact lastLine_run _ s
  | error fault => rfl
  | log remark => rfl
  | record constituent start => rfl
  | recognize goal => exact lastLine_run _ s

theorem Reachable.lastLine_eq {tokens : List Token} {s : Recognizer} (h : Reachable tokens s) :
    s.lastLine = (tokens.getLast?.map Token.line).getD 1 := by
  induction h with
  | start => rfl
  | perform _ operation ih => rw [lastLine_perform, ih]

/-- **Inside the list the next token is the one at the position.** -/
theorem Reachable.lookahead_eq {tokens : List Token} {s : Recognizer} (h : Reachable tokens s)
    (hinside : s.position < tokens.length) : s.lookahead = tokens[s.position] := by
  rw [lookahead, h.rest_eq, List.drop_eq_getElem_cons hinside, List.headD_cons]

/-- **Behind the list it is an end token on the line of the last token**, or on line one. -/
theorem Reachable.lookahead_behind {tokens : List Token} {s : Recognizer} (h : Reachable tokens s)
    (hbehind : tokens.length ≤ s.position) :
    s.lookahead = ⟨.endOfFile, "", (tokens.getLast?.map Token.line).getD 1⟩ := by
  rw [lookahead, h.rest_eq, List.drop_eq_nil_of_le hbehind, List.headD_nil, h.lastLine_eq]
  rfl

/-! ## Growth -/

/-- `s.Grows t` — `t` stands no further back, and its trace and its record go on behind those of `s`. -/
structure Grows (s t : Recognizer) : Prop where
  position : s.position ≤ t.position
  trace : s.trace.toList <+: t.trace.toList
  derivations : s.derivations.toList <+: t.derivations.toList

theorem Grows.refl (s : Recognizer) : s.Grows s :=
  ⟨Nat.le_refl _, List.prefix_refl _, List.prefix_refl _⟩

theorem Grows.trans {s t r : Recognizer} (h : s.Grows t) (h' : t.Grows r) : s.Grows r :=
  ⟨Nat.le_trans h.position h'.position, h.trace.trans h'.trace, h.derivations.trans h'.derivations⟩

theorem grows_advance (s : Recognizer) : s.Grows s.advance :=
  ⟨Nat.le_succ _, List.prefix_refl _, List.prefix_refl _⟩

theorem grows_log (s : Recognizer) (remark : Remark) : s.Grows (s.log remark) := by
  refine ⟨Nat.le_refl _, ?_, List.prefix_refl _⟩
  rw [toList_trace_log]
  exact List.prefix_append _ _

theorem grows_record (s : Recognizer) (constituent : Constituent) (start : Nat) :
    s.Grows (s.record constituent start) := by
  refine ⟨Nat.le_refl _, List.prefix_refl _, ?_⟩
  rw [toList_derivations_record]
  exact List.prefix_append _ _

/-- Each step of a run makes the state grow. -/
theorem preserved_grows (s : Recognizer) : Preserved fun _ _ t => s.Grows t where
  advance := fun h => h.trans (grows_advance _)
  expand := fun h _ => h
  log := fun h => h.trans (grows_log _ _)
  record := fun h => h.trans (grows_record _ _ _)

theorem grows_run (stack : List Symbol) (s : Recognizer) : s.Grows (s.run stack).state := by
  obtain ⟨word, left, -, hgrows, -⟩ := (preserved_grows s).run stack s [] (.refl s)
  exact hgrows

/-- **Every operation makes the state grow**, one that fails too. -/
theorem grows_perform (s : Recognizer) (operation : Operation) : s.Grows (s.perform operation) := by
  cases operation with
  | advance => exact grows_advance s
  | expect kind => exact grows_run _ s
  | error fault => exact .refl s
  | log remark => exact grows_log s remark
  | record constituent start => exact grows_record s constituent start
  | recognize goal => exact grows_run _ s

theorem grows_performAll (s : Recognizer) (operations : List Operation) :
    s.Grows (s.performAll operations) := by
  induction operations generalizing s with
  | nil => exact .refl s
  | cons operation operations ih => exact (grows_perform s operation).trans (ih _)

/-! ## The end of the list -/

/-- What derives no end token passes none, whether or not it gets through. -/
theorem endOfFile_not_mem_of_inner {stack : List Symbol}
    (h : ∀ letter ∈ sententialForm stack, letter.isInner = true) (s : Recognizer) :
    ∃ word, Kind.endOfFile ∉ word ∧ s.Passes word (s.run stack).state := by
  obtain ⟨word, left, hstops⟩ := run_stops stack s
  -- where it fails, what it has passed is the front of a word
  obtain ⟨rest, hrest⟩ := exists_derives (sententialForm left)
  have hwhole := (hstops.completes hrest).endOfFile_not_mem h
  exact ⟨word, fun hmem => hwhole (List.mem_append_left _ hmem), hstops.passes⟩

/-- **A run that passes no end token goes no further than the list.** -/
theorem position_run_le {stack : List Symbol}
    (h : ∀ letter ∈ sententialForm stack, letter.isInner = true) (s : Recognizer) :
    (s.run stack).state.position ≤ s.position + s.rest.length := by
  obtain ⟨word, hword, hpass⟩ := endOfFile_not_mem_of_inner h s
  have hlength := length_le_of_kindsAhead hpass.kinds hword
  have hposition := hpass.position
  omega

/-- The end token and `program` are the only symbols that derive an end token. -/
theorem isInner_form {symbol : Symbol} (htoken : symbol ≠ .token .endOfFile)
    (hgoal : symbol ≠ .goal .program) :
    ∀ letter ∈ sententialForm [symbol], letter.isInner = true := by
  cases symbol with
  | token kind =>
    intro letter hletter
    obtain rfl : letter = .token kind := List.mem_singleton.mp hletter
    have hkind : kind ≠ .endOfFile := fun heq => htoken (heq ▸ rfl)
    simpa [Letter.isInner] using hkind
  | goal g =>
    have table : ∀ g ∈ Goal.all, g ≠ .program →
        ∀ letter ∈ sententialForm [.goal g], letter.isInner = true := by decide
    exact table g g.mem_all fun heq => hgoal (heq ▸ rfl)
  | remark remark => exact fun _ hletter => nomatch hletter
  | complete constituent start => exact fun _ hletter => nomatch hletter

/-- **Few operations lead behind the list**: to consume whatever comes next, or an end token. -/
theorem Reachable.operation_of_growth {tokens : List Token} {s : Recognizer} (h : Reachable tokens s)
    {operation : Operation} (hgrowth : s.position < (s.perform operation).position)
    (hbehind : tokens.length < (s.perform operation).position) :
    operation ∈ [.advance, .expect .endOfFile, .recognize .program] := by
  have hrest : s.rest.length = tokens.length - s.position := by
    rw [h.rest_eq, List.length_drop]
  -- what does not derive an end token goes as far as the list or stays where it is
  have hinside : ∀ symbol : Symbol, s.position < (s.run [symbol]).state.position →
      tokens.length < (s.run [symbol]).state.position →
      symbol = .token .endOfFile ∨ symbol = .goal .program := by
    intro symbol hmoved hfar
    by_cases htoken : symbol = .token .endOfFile
    · exact Or.inl htoken
    · by_cases hgoal : symbol = .goal .program
      · exact Or.inr hgoal
      · have hle := position_run_le (isInner_form htoken hgoal) s
        omega
  cases operation with
  | advance => decide
  | expect kind =>
    rcases hinside (.token kind) hgrowth hbehind with heq | heq
    · cases heq
      decide
    · cases heq
  | error fault => exact absurd hgrowth (Nat.lt_irrefl _)
  | log remark => exact absurd hgrowth (Nat.lt_irrefl _)
  | record constituent start => exact absurd hgrowth (Nat.lt_irrefl _)
  | recognize goal =>
    rcases hinside (.goal goal) hgrowth hbehind with heq | heq
    · cases heq
    · cases heq
      decide

/-! ## Any sequence of operations -/

/-- A token that is expected is consumed, or nothing happens. -/
theorem expect_eq (s : Recognizer) (kind : Kind) :
    s.expect kind =
      if s.lookahead.kind = kind then ⟨s.advance, none⟩ else ⟨s, some (.expectedToken kind)⟩ := by
  unfold expect
  split
  · rename_i h
    rw [run_token h, run_nil]
  · rename_i h
    rw [run_token_of_ne h]

/-- **The state of a recognizer after any operations.**  The next token is the one at the position, and
    behind the list an end token without text, on the line of the last token or else on line one.
    Whatever is done further, the position does not go back, and trace and record go on behind what
    they hold.  The position comes to grow beyond the list by three operations only.  And expecting a
    token either consumes it or fails and leaves the whole state as it was. -/
theorem performAll_invariant (tokens : List Token) (operations : List Operation) :
    ∃ s, (ofTokens tokens).performAll operations = s ∧
      (∀ h : s.position < tokens.length, s.lookahead = tokens[s.position]) ∧
      (tokens.length ≤ s.position →
        s.lookahead = ⟨.endOfFile, "", (tokens.getLast?.map Token.line).getD 1⟩) ∧
      (∀ further, s.position ≤ (s.performAll further).position ∧
        s.trace.toList <+: (s.performAll further).trace.toList ∧
        s.derivations.toList <+: (s.performAll further).derivations.toList) ∧
      (∀ operation, s.position < (s.perform operation).position →
        tokens.length < (s.perform operation).position →
        operation ∈ [.advance, .expect .endOfFile, .recognize .program]) ∧
      ∀ kind, (s.expect kind).fault = none ∧ s.lookahead.kind = kind ∧
          (s.expect kind).state = s.advance ∨
        (s.expect kind).fault = some (.expectedToken kind) ∧ s.lookahead.kind ≠ kind ∧
          (s.expect kind).state = s := by
  have hreachable := (@Reachable.start tokens).performAll operations
  refine ⟨_, rfl, hreachable.lookahead_eq, hreachable.lookahead_behind, ?_,
    fun _ => hreachable.operation_of_growth, ?_⟩
  · intro further
    have hgrows := grows_performAll ((ofTokens tokens).performAll operations) further
    exact ⟨hgrows.position, hgrows.trace, hgrows.derivations⟩
  · intro kind
    rw [expect_eq]
    split
    · rename_i h
      exact Or.inl ⟨rfl, h, rfl⟩
    · rename_i h
      exact Or.inr ⟨rfl, h, rfl⟩

/-- A statement fails behind its name, at the end of the list, and what follows goes on from there. -/
example : ((ofTokens [⟨.identifier, "x", 7⟩]).performAll
      [.recognize .statement, .expect .semicolon, .expect .endOfFile, .advance]).lookahead =
        ⟨.endOfFile, "", 7⟩ ∧
    ((ofTokens [⟨.identifier, "x", 7⟩]).performAll
      [.recognize .statement, .expect .semicolon, .expect .endOfFile, .advance]).position = 3 := by
  cbv

end Recognizer

end CalcFrontEnd
