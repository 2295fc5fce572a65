/-
  CONCATENATION — a block in front of other tokens is recognized as if it stood alone, and so are they.

  1. **Stacks one behind the other** — a run that gets through the upper part of its stack goes on with
     the lower part where it stands (`run_append`).

  2. **Places** — a run further down the list does what a run at its front does: `s.behind before` is `s`
     with all that `before` has passed and noted down in front of it, and running commutes with that
     (`run_behind`).

  3. **The crux (`run_block`)** — in front of a block and anything else, a run for a block comes to stand
     behind the block, with a run for a block still to do.  Nothing prolongs a statement, so each one
     is passed whole, whatever its last token is followed by; what is noted down is the log and the
     record of the block's tree, and these the block alone decides.

  4. **Result** — `ofTokens_append`.
-/
import CalcFrontEnd.Proofs.Recognizer.Prefix
import CalcFrontEnd.Proofs.Recognizer.Record

namespace CalcFrontEnd

/-! ## Stacks one behind the other -/

namespace Recognizer

/-- **A run that gets through the upper part of its stack goes on with the lower part.** -/
theorem run_append (symbols : List Symbol) (s : Recognizer) (h : (s.run symbols).fault = none)
    (stack : List Symbol) : s.run (symbols ++ stack) = (s.run symbols).state.run stack := by
  induction symbols, s using run.induct with
  | case1 s => rw [run_nil, List.nil_append]
  | case2 s symbols ih =>
    rw [run_token rfl] at h ⊢
    rw [List.cons_append, run_token rfl]
    exact ih h
  | case3 s kind symbols hne =>
    rw [run_token_of_ne hne] at h
    cases h
  | case4 s g symbols expanded hexpand ih =>
    rw [run_goal hexpand] at h ⊢
    rw [List.cons_append, run_goal hexpand, ← List.append_assoc, ← List.append_assoc,
      List.append_assoc expanded]
    exact ih h
  | case5 s g symbols fault hexpand =>
    rw [run_goal_of_error hexpand] at h
    cases h
  | case6 s remark symbols ih =>
    rw [run_remark] at h ⊢
    rw [List.cons_append, run_remark]
    exact ih h
  | case7 s constituent start symbols ih =>
    rw [run_complete] at h ⊢
    rw [List.cons_append, run_complete]
    exact ih h

end Recognizer

/-! ## Places -/

/-- The same record `n` tokens further on. -/
def Derivation.shift (n : Nat) (d : Derivation) : Derivation :=
  { d with start := d.start + n, stop := d.stop + n }

/-- The same symbol, with a record that waits `n` tokens further on. -/
def Symbol.shift (n : Nat) : Symbol → Symbol
  | .complete constituent start => .complete constituent (start + n)
  | symbol => symbol

theorem map_shift_of_isComplete (n : Nat) {symbols : List Symbol}
    (h : ∀ symbol ∈ symbols, symbol.isComplete = false) : symbols.map (Symbol.shift n) = symbols := by
  refine (List.map_congr_left ?_).trans (List.map_id symbols)
  intro symbol hmem
  have hsymbol := h symbol hmem
  cases symbol with
  | complete _ _ => cases hsymbol
  | _ => rfl

theorem map_shift_completion (n : Nat) (g : Goal) (start : Nat) :
    (g.completion start).map (Symbol.shift n) = g.completion (start + n) := by
  unfold Goal.completion
  cases g.constituent? <;> rfl

namespace Recognizer

/-- A recognizer with all that another one has passed and noted down in front of it. -/
def behind (s before : Recognizer) : Recognizer :=
  { s with
    position := s.position + before.position
    trace := before.trace ++ s.trace
    derivations := before.derivations ++ s.derivations.map (Derivation.shift before.position) }

theorem lookahead_behind (s before : Recognizer) : (s.behind before).lookahead = s.lookahead := rfl

theorem behind_advance (s before : Recognizer) :
    (s.behind before).advance = s.advance.behind before := by
  simp only [behind, advance, Recognizer.mk.injEq, true_and, and_true]
  omega

theorem behind_log (s before : Recognizer) (remark : Remark) :
    (s.behind before).log remark = (s.log remark).behind before := by
  simp [behind, log]

theorem behind_record (s before : Recognizer) (constituent : Constituent) (start : Nat) :
    (s.behind before).record constituent (start + before.position) =
      (s.record constituent start).behind before := by
  simp [behind, record, Derivation.shift]

/-- **A run behind others does what a run at the front does.** -/
theorem run_behind (stack : List Symbol) (s before : Recognizer) :
    (s.behind before).run (stack.map (Symbol.shift before.position)) =
      ⟨(s.run stack).state.behind before, (s.run stack).fault⟩ := by
  induction stack, s using run.induct with
  | case1 s =>
    rw [run_nil]
    exact run_nil _
  | case2 s stack ih =>
    have hkind := congrArg Token.kind (lookahead_behind s before)
    rw [run_token rfl, ← ih, ← behind_advance]
    exact run_token hkind _
  | case3 s kind stack hne =>
    rw [run_token_of_ne hne]
    rw [← lookahead_behind s before] at hne
    exact run_token_of_ne hne _
  | case4 s g stack symbols hexpand ih =>
    have hstack : (symbols ++ (g.completion s.position ++ stack)).map (Symbol.shift before.position) =
        symbols ++ (g.completion (s.behind before).position ++
          stack.map (Symbol.shift before.position)) := by
      rw [List.map_append, List.map_append, map_shift_of_isComplete _ (isComplete_expand hexpand),
        map_shift_completion]
      rfl
    rw [run_goal hexpand, ← ih, hstack]
    rw [← lookahead_behind s before] at hexpand
    exact run_goal hexpand _
  | case5 s g stack fault hexpand =>
    rw [run_goal_of_error hexpand]
    rw [← lookahead_behind s before] at hexpand
    exact run_goal_of_error hexpand _
  | case6 s remark stack ih =>
    rw [run_remark, ← ih, ← behind_log]
    exact run_remark _ _ _
  | case7 s constituent start stack ih =>
    rw [run_complete, ← ih, ← behind_record]
    exact run_complete _ _ _ _

end Recognizer

/-! ## Blocks -/

namespace Tree

/-- The block without statements. -/
def blockNil : Tree .block := ⟨.nil, by decide, trivial⟩

/-- The block of a statement and the statements of another block. -/
def blockCons (row : Forest) (hletters : row.letters = [.nonterminal .statement])
    (hvalid : row.Valid) (tree : Tree .block) : Tree .block where
  below := row ++ tree.forest
  production := by
    rw [Forest.letters_append, hletters]
    exact List.mem_cons_self
  valid := (Forest.valid_append _ _).mpr ⟨hvalid, tree.valid_forest⟩

variable {row : Forest} (hletters : row.letters = [.nonterminal .statement]) (hvalid : row.Valid)
  (tree : Tree .block)

theorem word_blockCons : (blockCons row hletters hvalid tree).word = row.word ++ tree.word := by
  show (row ++ tree.forest).word ++ [] = _
  rw [List.append_nil, Forest.word_append]
  rfl

theorem log_blockCons : (blockCons row hletters hvalid tree).log = row.log ++ tree.log := by
  -- a block logs nothing of its own
  show [] ++ (row ++ tree.forest).log ++ [] ++ [] = _
  rw [List.append_nil, List.append_nil, List.nil_append, Forest.log_append]
  rfl

theorem record_blockCons (start : Nat) :
    (blockCons row hletters hvalid tree).forest.record start =
      row.record start ++ tree.forest.record (start + row.word.length) := by
  -- nor does it record anything
  show (row ++ tree.forest).record start ++ [] ++ [] = _
  rw [List.append_nil, List.append_nil, Forest.record_append]

end Tree

namespace Recognizer

/-- **A statement is passed whole, whatever follows**, and noted down as its tree says. -/
theorem run_statement {s : Recognizer} {word : List Kind}
    (hword : Nonterminal.statement.Yields word) (hahead : s.kindsAhead word.length = word) :
    ∃ row : Forest, (s.run [.goal .statement]).fault = none ∧
      s.Passes word (s.run [.goal .statement]).state ∧
      row.letters = [.nonterminal .statement] ∧ row.Valid ∧ row.word = word ∧
      (s.run [.goal .statement]).state.trace.toList = s.trace.toList ++ row.log ∧
      (s.run [.goal .statement]).state.derivations.toList =
        s.derivations.toList ++ row.record s.position := by
  -- nothing prolongs a statement
  have hsettles : Settles (sententialForm [.goal .statement]) (s.kindAt word.length) :=
    ⟨fun _ _ => List.not_mem_nil, trivial⟩
  obtain ⟨hfault, hpass⟩ := run_of_derives [.goal .statement] s hword hsettles
    (kindsAhead_eq_concat_iff.mpr ⟨hahead, rfl⟩)
  obtain ⟨row, log, record, hnotes, hread, htrace, hrecord⟩ := run_notes _ s hfault
  cases hnotes with
  | @goal _ _ _ row _ _ _ hletters hvalid hnil =>
    cases hnil
    rw [Forest.append_nil] at hread
    rw [List.append_nil] at htrace hrecord
    exact ⟨row, hfault, hpass, hletters, hvalid, hread.word_eq hpass, htrace, hrecord⟩

/-- A block is empty, or a statement and a block. -/
theorem block_cases {word : List Kind} (h : Nonterminal.block.Yields word) :
    word = [] ∨ ∃ u v, word = u ++ v ∧ Nonterminal.statement.Yields u ∧
      Nonterminal.block.Yields v := by
  obtain ⟨rhs, hrhs, h⟩ := Derives.exists_production h
  rw [List.append_nil] at h
  rcases List.mem_cons.mp hrhs with rfl | hrhs
  · exact Or.inr (derives_append_iff (α := [.nonterminal .statement]).mp h)
  · obtain rfl := List.mem_singleton.mp hrhs
    cases h
    exact Or.inl rfl

/-- In front of a statement a run for a block turns to it first. -/
theorem run_block_of_statement {s : Recognizer} {word : List Kind}
    (hword : Nonterminal.statement.Yields word) (hahead : s.kindsAhead word.length = word)
    (stack : List Symbol) :
    s.run (.goal .block :: stack) = s.run ([.goal .statement] ++ .goal .block :: stack) := by
  have hnext : s.lookahead.kind ∈ Kind.statementStarts := by
    rw [kind_lookahead_of_kindsAhead (kindsAhead_eq_concat_iff.mpr ⟨hahead, rfl⟩)]
    have hopener := derives_opener hword (s.kindAt word.length)
    rcases List.mem_append.mp hopener with hstart | hnone
    · exact hstart
    · exact absurd hnone List.not_mem_nil
  have hexpand : Goal.block.expand s.lookahead.kind = .ok [.goal .statement, .goal .block] :=
    if_pos hnext
  exact run_goal hexpand stack

/-- **A run for a block comes to stand behind a block that lies ahead, whatever follows**, with a run for
    a block still to do.  What it has noted down is the log and the record of the block's tree. -/
theorem run_block {s : Recognizer} {word : List Kind} (hword : Nonterminal.block.Yields word)
    (hahead : s.kindsAhead word.length = word) (stack : List Symbol) :
    ∃ (tree : Tree .block) (t : Recognizer), tree.word = word ∧ s.Passes word t ∧
      s.run (.goal .block :: stack) = t.run (.goal .block :: stack) ∧
      t.trace.toList = s.trace.toList ++ tree.log ∧
      t.derivations.toList = s.derivations.toList ++ tree.forest.record s.position := by
  rcases block_cases hword with rfl | ⟨u, v, rfl, hu, hv⟩
  · refine ⟨.blockNil, s, rfl, .refl s, rfl, ?_, ?_⟩
    · exact (List.append_nil _).symm
    · exact (List.append_nil _).symm
  · have hahead' : s.kindsAhead u.length = u := by
      rw [← take_kindsAhead s (Nat.le_add_right u.length v.length), ← List.length_append, hahead,
        List.take_left]
    obtain ⟨row, hfault, hpass, hletters, hvalid, hrow, htrace, hrecord⟩ := run_statement hu hahead'
    have hbehind : (s.run [.goal .statement]).state.kindsAhead v.length = v := by
      rw [List.length_append, hpass.kindsAhead_add] at hahead
      exact List.append_cancel_left hahead
    -- a statement is not empty, so what is left of the block is shorter
    have hless : v.length < (u ++ v).length := by
      have hpos := List.length_pos_iff.mpr (Nonterminal.ne_nil rfl hu)
      rw [List.length_append]
      omega
    obtain ⟨tree, t, htree, hpass', hrun, htrace', hrecord'⟩ := run_block hv hbehind stack
    refine ⟨.blockCons row hletters hvalid tree, t, ?_, hpass.trans hpass', ?_, ?_, ?_⟩
    · rw [Tree.word_blockCons, hrow, htree]
    · rw [run_block_of_statement hu hahead', run_append _ _ hfault, hrun]
    · rw [htrace', htrace, Tree.log_blockCons, List.append_assoc]
    · rw [hrecord', hrecord, Tree.record_blockCons, hrow, hpass.position, List.append_assoc]
termination_by word.length

/-- The same for a block that is given by its tree: there is no other tree of its word. -/
theorem run_tree {s : Recognizer} (tree : Tree .block) {word : List Kind} (hword : tree.word = word)
    (hahead : s.kindsAhead word.length = word) (stack : List Symbol) :
    ∃ t : Recognizer, s.Passes word t ∧
      s.run (.goal .block :: stack) = t.run (.goal .block :: stack) ∧
      t.trace.toList = s.trace.toList ++ tree.log ∧
      t.derivations.toList = s.derivations.toList ++ tree.forest.record s.position := by
  have hyields : Nonterminal.block.Yields word := hword ▸ tree.yields
  obtain ⟨other, t, hother, hpass, hrun, htrace, hrecord⟩ := run_block hyields hahead stack
  obtain rfl : other = tree := Tree.eq_of_word_eq (hother.trans hword.symm) (by decide)
  exact ⟨t, hpass, hrun, htrace, hrecord⟩

/-- A program is a block and the end token. -/
theorem recognize_program (s : Recognizer) :
    s.recognize .program = s.run [.goal .block, .token .endOfFile] := by
  have hexpand : Goal.program.expand s.lookahead.kind = .ok [.goal .block, .token .endOfFile] := rfl
  exact run_goal hexpand []

/-- At the end of the list there is nothing left of a program but its end token. -/
theorem run_program_of_rest_eq_nil {s : Recognizer} (h : s.rest = []) :
    s.run [.goal .block, .token .endOfFile] = ⟨s.advance, none⟩ := by
  have hkind := kind_lookahead_of_rest_eq_nil h
  have hexpand : Goal.block.expand s.lookahead.kind = .ok [] := by
    rw [hkind]
    rfl
  rw [run_goal hexpand]
  show s.run [.token .endOfFile] = _
  rw [run_token hkind, run_nil]

end Recognizer

/-! ## Token lists -/

namespace Outcome

open Recognizer

/-- The kinds of a token list lie ahead of it, whatever comes behind it. -/
theorem kindsAhead_ofTokens_append (p q : List Token) :
    (Recognizer.ofTokens (p ++ q)).kindsAhead (p.map Token.kind).length = p.map Token.kind := by
  have hle : p.length ≤ (Recognizer.ofTokens (p ++ q)).rest.length := by
    show p.length ≤ (p ++ q).length
    rw [List.length_append]
    omega
  rw [List.length_map, kindsAhead_of_le hle]
  exact congrArg _ List.take_left

/-- The outcome of a block alone is what its tree says. -/
theorem ofTokens_of_tree {p : List Token} (tree : Tree .block) (h : tree.word = p.map Token.kind) :
    ofTokens p = ⟨tree.log, tree.record, none⟩ := by
  have hahead := kindsAhead_ofTokens_append p []
  rw [List.append_nil] at hahead
  obtain ⟨t, hpass, hrun, htrace, hrecord⟩ := run_tree tree h hahead [.token .endOfFile]
  have hrest : t.rest = [] := by
    rw [hpass.rest, List.length_map]
    exact List.drop_length
  have hending : programEnding p = ⟨t.advance, none⟩ := by
    rw [programEnding, recognize_program, hrun, run_program_of_rest_eq_nil hrest]
  have hfailure : (programEnding p).programError? = none := by
    have hbehind : t.advance.rest = [] := congrArg List.tail hrest
    rw [hending]
    exact Ending.programError?_eq_none_iff.mpr ⟨rfl, kind_lookahead_of_rest_eq_nil hbehind⟩
  show Outcome.mk (programEnding p).state.trace.toList (programEnding p).state.derivations.toList
    (programEnding p).programError? = _
  rw [hfailure, hending]
  show Outcome.mk t.trace.toList t.derivations.toList none = _
  rw [htrace, hrecord]
  rfl

/-- Behind a block all is as at the front of the tokens that follow it, if there are any. -/
theorem programEnding_append {p q : List Token} (tree : Tree .block)
    (h : tree.word = p.map Token.kind) (hq : q ≠ []) :
    ∃ before : Recognizer, before.position = p.length ∧ before.trace.toList = tree.log ∧
      before.derivations.toList = tree.record ∧
      programEnding (p ++ q) = ⟨(programEnding q).state.behind before, (programEnding q).fault⟩ := by
  obtain ⟨t, hpass, hrun, htrace, hrecord⟩ :=
    run_tree tree h (kindsAhead_ofTokens_append p q) [.token .endOfFile]
  have hrest : t.rest = q := by
    rw [hpass.rest, List.length_map]
    exact List.drop_left
  -- the line of the end tokens is that of the last token, and this is the last one of `q` already
  have hlastLine : t.lastLine = (Recognizer.ofTokens q).lastLine := by
    rw [hpass.lastLine]
    show ((p ++ q).getLast?.map Token.line).getD 1 = (q.getLast?.map Token.line).getD 1
    rw [List.getLast?_append, List.getLast?_eq_some_getLast hq, Option.some_or]
  have hbehind : (Recognizer.ofTokens q).behind t = t := by
    show Recognizer.mk q (0 + t.position) (Recognizer.ofTokens q).lastLine (t.trace ++ #[])
      (t.derivations ++ #[].map (Derivation.shift t.position)) = t
    rw [← hlastLine, ← hrest]
    simp
  have hrun' := run_behind [.goal .block, .token .endOfFile] (Recognizer.ofTokens q) t
  rw [hbehind] at hrun'
  refine ⟨t, ?_, htrace, hrecord, ?_⟩
  · rw [hpass.position, List.length_map]
    exact Nat.zero_add p.length
  · rw [programEnding, programEnding, recognize_program, recognize_program, hrun]
    exact hrun'

/-- **Recognizing is compositional.**  In front of any tokens, valid or not, a block adds its trace and
    its record in front of theirs, which moves by the block's length; and the result is theirs, with the
    same error on the same line if they fail. -/
theorem ofTokens_append {p : List Token} (hp : Nonterminal.block.Yields (p.map Token.kind))
    (q : List Token) :
    (ofTokens (p ++ q)).trace = (ofTokens p).trace ++ (ofTokens q).trace ∧
      (ofTokens (p ++ q)).derivations = (ofTokens p).derivations ++
        (ofTokens q).derivations.map
          (fun d => ⟨d.constituent, d.start + p.length, d.stop + p.length⟩) ∧
      (ofTokens (p ++ q)).failure = (ofTokens q).failure := by
  obtain ⟨tree, -, hword, -⟩ := run_block hp (kindsAhead_ofTokens_append p q) []
  rw [ofTokens_of_tree tree hword]
  by_cases hq : q = []
  · subst hq
    have hempty : ofTokens [] = ⟨[], [], none⟩ := ofTokens_of_tree .blockNil rfl
    rw [List.append_nil, hempty, ofTokens_of_tree tree hword]
    exact ⟨(List.append_nil _).symm, (List.append_nil _).symm, rfl⟩
  · obtain ⟨before, hposition, htrace, hrecord, hending⟩ := programEnding_append tree hword hq
    refine ⟨?_, ?_, ?_⟩
    · show (programEnding (p ++ q)).state.trace.toList = _
      rw [hending, ← htrace]
      exact Array.toList_append
    · show (programEnding (p ++ q)).state.derivations.toList = _
      rw [hending, ← hrecord, ← hposition]
      show (before.derivations ++ _).toList = _
      rw [Array.toList_append, Array.toList_map]
      rfl
    · show (programEnding (p ++ q)).programError? = (programEnding q).programError?
      rw [hending]
      rfl

/-- A whole assignment in front of an unfinished one: the record of the second goes on where the first
    one ends, and the missing semicolon is reported on the last line. -/
theorem ofTokens_append_unfinished :
    Nonterminal.block.Yields (negatedPower.dropLast.map Token.kind) ∧
      (ofTokens (negatedPower.dropLast ++ unfinishedAssignment)).trace = [.assignmentRecognized] ∧
      (ofTokens (negatedPower.dropLast ++ unfinishedAssignment)).derivations =
        [⟨.value, 3, 4⟩, ⟨.atom, 2, 4⟩, ⟨.value, 5, 6⟩, ⟨.atom, 5, 6⟩, ⟨.factor, 2, 6⟩, ⟨.term, 2, 6⟩,
         ⟨.expr, 2, 6⟩, ⟨.statement, 0, 7⟩, ⟨.value, 9, 10⟩, ⟨.atom, 9, 10⟩, ⟨.factor, 9, 10⟩,
         ⟨.term, 9, 10⟩, ⟨.expr, 9, 10⟩] ∧
      (ofTokens (negatedPower.dropLast ++ unfinishedAssignment)).failure =
        some ⟨.expectedToken .semicolon, 2⟩ := by
  have hunfinished : ofTokens unfinishedAssignment =
      ⟨[], [⟨.value, 2, 3⟩, ⟨.atom, 2, 3⟩, ⟨.factor, 2, 3⟩, ⟨.term, 2, 3⟩, ⟨.expr, 2, 3⟩],
        some ⟨.expectedToken .semicolon, 2⟩⟩ := by
    simp [ofTokens, unfinishedAssignment, Recognizer.ofTokens, Ending.programError?, Ending.error?,
      Recognizer.error, Recognizer.line]
  have hyields : Nonterminal.block.Yields (negatedPower.dropLast.map Token.kind) :=
    negatedPowerTree.yields
  obtain ⟨htrace, hrecord, hfailure⟩ := ofTokens_append hyields unfinishedAssignment
  have hwhole : ofTokens negatedPower.dropLast =
      ⟨negatedPowerTree.log, negatedPowerTree.record, none⟩ := ofTokens_of_tree negatedPowerTree rfl
  rw [hwhole, hunfinished] at htrace hrecord
  rw [hunfinished] at hfailure
  exact ⟨hyields, htrace, hrecord, hfailure⟩

end Outcome

end CalcFrontEnd
