/-
  FAULTS — what an error says about a token list is true, and what goes without one.

  1. **Specification** — `fault.TrueAfter kinds`: what a fault says about the kinds in front of the place
     it was met at.  A fault that names kinds which would have fitted says that with any of them the
     list could have gone on to a program; a fault about tokens behind a program says that the program
     is one.  Some faults there are not.

  2. **What would have fitted** — a run stops at a misfit, and what is left on its stack could be
     completed.  Each kind that the fault names starts a word of what is left
     (`Misfit.exists_derives`), so it starts a completion (`viable_wanted`).

  3. **What cannot happen** — a symbol that asks for a particular next token comes onto the stack where
     the lookahead has just picked it, hence on top and with that token ahead.  `Guarded` says so; each
     step keeps it (`guarded_expand`), and so the faults of such symbols are never met (`run_isLive`).

  4. **Tokens behind a program** — the recognizer looks at one token behind the end token.  `unnoticed_iff`
     says exactly where that is not enough: a second end token hides all that comes behind it.
-/
import CalcFrontEnd.Proofs.Recognizer.Prefix

namespace CalcFrontEnd

namespace ParseFault

/-- The kinds that a fault says would have fitted. -/
def wanted : ParseFault → List Kind
  | expectedToken kind => [kind]
  | statementExpected => Kind.statementStarts
  | incompleteIf => [.endifWord, .elseWord]
  | symbolExpected => Kind.valueStarts
  | missingRelationalOperator | relationalOperatorExpected => Kind.relational
  | trailingTokens | unknownTokenKind _ => []

/-- `fault.TrueAfter kinds` — what the fault says is true behind tokens of these kinds. -/
def TrueAfter (fault : ParseFault) (kinds : List Kind) : Prop :=
  match fault with
  | expectedToken kind => Viable (kinds ++ [kind]) ∧ kind ∉ Kind.statementStarts
  | incompleteIf => Viable (kinds ++ [.endifWord]) ∧ Viable (kinds ++ [.elseWord])
  | symbolExpected =>
    Viable (kinds ++ [.identifier]) ∧ Viable (kinds ++ [.number]) ∧
      Viable (kinds ++ [.sqrtWord]) ∧ Viable (kinds ++ [.leftParen])
  | missingRelationalOperator => ∀ kind ∈ Kind.relational, Viable (kinds ++ [kind])
  | trailingTokens => Nonterminal.program.Yields kinds
  | statementExpected | relationalOperatorExpected | unknownTokenKind _ => False

/-- Whether a run for a program can meet the fault. -/
def isLive : ParseFault → Bool
  | expectedToken kind => kind ∉ Kind.statementStarts
  | incompleteIf | symbolExpected | missingRelationalOperator => true
  | statementExpected | relationalOperatorExpected | trailingTokens | unknownTokenKind _ => false

/-- For a fault that can be met it is enough that the kinds it names would have fitted. -/
theorem trueAfter_of_wanted {fault : ParseFault} (hlive : fault.isLive = true) {kinds : List Kind}
    (h : ∀ kind ∈ fault.wanted, Viable (kinds ++ [kind])) : fault.TrueAfter kinds := by
  cases fault with
  | expectedToken kind => exact ⟨h kind (List.mem_singleton.mpr rfl), of_decide_eq_true hlive⟩
  | incompleteIf => exact ⟨h _ (by decide), h _ (by decide)⟩
  | symbolExpected =>
    exact ⟨h _ (by decide), h _ (by decide), h _ (by decide), h _ (by decide)⟩
  | missingRelationalOperator => exact h
  | statementExpected | relationalOperatorExpected | trailingTokens | unknownTokenKind =>
    exact absurd hlive Bool.false_ne_true

end ParseFault

/-! ## What would have fitted -/

/-- A goal that does not fit is open for each of the kinds that its fault names. -/
theorem opens_wanted {g : Goal} {ahead : Kind} {fault : ParseFault}
    (h : g.expand ahead = .error fault) :
    ∃ n form, g.form = .nonterminal n :: form ∧
      ∀ kind ∈ fault.wanted, ∃ rhs ∈ n.productions, rhs.head? = some (.token kind) := by
  cases g <;> simp only [Goal.expand] at h <;> (try split at h) <;> cases h <;>
    exact ⟨_, _, rfl, by decide⟩

namespace Recognizer

/-- **Each kind that a fault names starts a word of what is left.** -/
theorem Misfit.exists_derives {s : Recognizer} {stack : List Symbol} {fault : ParseFault}
    (h : s.Misfit stack fault) {kind : Kind} (hkind : kind ∈ fault.wanted) :
    ∃ word, Derives (sententialForm stack) (kind :: word) := by
  cases h with
  | @token expected stack hne =>
    obtain rfl : kind = expected := List.mem_singleton.mp hkind
    obtain ⟨word, hword⟩ := CalcFrontEnd.exists_derives (sententialForm stack)
    exact ⟨word, .token kind hword⟩
  | @goal g stack fault herror =>
    obtain ⟨n, form, hform, hopens⟩ := opens_wanted herror
    obtain ⟨rhs, hrhs, hhead⟩ := hopens kind hkind
    obtain ⟨others, rfl⟩ := List.head?_eq_some_iff.mp hhead
    obtain ⟨word, hword⟩ := CalcFrontEnd.exists_derives (others ++ (form ++ sententialForm stack))
    refine ⟨word, ?_⟩
    rw [sententialForm_cons, Symbol.form, hform]
    exact .of_production hrhs (.token kind hword)

/-- Behind what was passed, each kind that the fault names would have gone on to a program. -/
theorem viable_wanted {s : Recognizer} {fault : ParseFault} {passed : List Kind}
    (h : (s.recognize .program).fault = some fault)
    (hpass : s.Passes passed (s.recognize .program).state) :
    ∀ kind ∈ fault.wanted, Viable (passed ++ [kind]) := by
  intro kind hkind
  obtain ⟨word, left, hstops⟩ := run_stops [.goal .program] s
  obtain rfl : passed = word := hpass.word_eq hstops.passes
  obtain ⟨rest, hrest⟩ := (hstops.misfit h).exists_derives hkind
  refine ⟨passed ++ kind :: rest, hstops.completes hrest, rest, ?_⟩
  rw [List.append_assoc, List.singleton_append]

end Recognizer

/-! ## What cannot happen -/

/-- The next tokens with which a symbol comes onto the stack, if the lookahead has to pick it. -/
def Symbol.guard? : Symbol → Option (List Kind)
  | .goal .statement => some Kind.statementStarts
  | .goal .assignment | .token .identifier => some [.identifier]
  | .goal .print | .token .printWord => some [.printWord]
  | .goal .conditional | .token .ifWord => some [.ifWord]
  | .goal .relOp => some Kind.relational
  | _ => none

/-- `Guarded ahead stack` — a symbol that the lookahead has to pick stands on top only, and with one of
    its tokens ahead. -/
def Guarded (ahead : Kind) : List Symbol → Prop
  | [] => True
  | top :: stack => (∀ kinds ∈ top.guard?, ahead ∈ kinds) ∧ ∀ symbol ∈ stack, symbol.guard? = none

instance instDecidableGuarded (ahead : Kind) : ∀ stack, Decidable (Guarded ahead stack)
  | [] => inferInstanceAs (Decidable True)
  | top :: stack => inferInstanceAs
      (Decidable ((∀ kinds ∈ top.guard?, ahead ∈ kinds) ∧ ∀ symbol ∈ stack, symbol.guard? = none))

/-- Where the lookahead has to pick nothing, any next token will do. -/
theorem guarded_of_free {stack : List Symbol} (h : ∀ symbol ∈ stack, symbol.guard? = none)
    (ahead : Kind) : Guarded ahead stack := by
  cases stack with
  | nil => trivial
  | cons top stack =>
    obtain ⟨htop, hstack⟩ := List.forall_mem_cons.mp h
    refine ⟨?_, hstack⟩
    rw [htop]
    exact fun kinds hkinds => nomatch hkinds

theorem Guarded.append {ahead : Kind} {symbols stack : List Symbol} (h : Guarded ahead symbols)
    (hstack : ∀ symbol ∈ stack, symbol.guard? = none) : Guarded ahead (symbols ++ stack) := by
  cases symbols with
  | nil => exact guarded_of_free hstack ahead
  | cons top symbols =>
    refine ⟨h.1, fun symbol hmem => ?_⟩
    rcases List.mem_append.mp hmem with hmem | hmem
    · exact h.2 symbol hmem
    · exact hstack symbol hmem

theorem guard?_completion (g : Goal) (start : Nat) :
    ∀ symbol ∈ g.completion start, symbol.guard? = none := by
  unfold Goal.completion
  split
  · intro symbol hmem
    rw [List.mem_singleton.mp hmem]
    rfl
  · exact fun symbol hmem => nomatch hmem

/-- **Expansion keeps a stack guarded.** -/
theorem guarded_expand {g : Goal} {ahead : Kind} {symbols stack : List Symbol} (start : Nat)
    (h : Guarded ahead (.goal g :: stack)) (hexpand : g.expand ahead = .ok symbols) :
    Guarded ahead (symbols ++ (g.completion start ++ stack)) := by
  have table : ∀ g ∈ Goal.all, ∀ ahead ∈ Kind.all,
      (∀ kinds ∈ (Symbol.goal g).guard?, ahead ∈ kinds) →
        ∀ symbols ∈ (g.expand ahead).toOption, Guarded ahead symbols := by decide +kernel
  have hsymbols := table g g.mem_all ahead ahead.mem_all h.1 symbols (by rw [hexpand]; rfl)
  refine hsymbols.append fun symbol hmem => ?_
  rcases List.mem_append.mp hmem with hmem | hmem
  · exact guard?_completion g start symbol hmem
  · exact h.2 symbol hmem

/-- The goals that the lookahead has picked have an alternative for it. -/
theorem isLive_of_expand {g : Goal} {ahead : Kind} {fault : ParseFault}
    (h : ∀ kinds ∈ (Symbol.goal g).guard?, ahead ∈ kinds) (herror : g.expand ahead = .error fault) :
    fault.isLive = true := by
  have table : ∀ g ∈ Goal.all, ∀ ahead ∈ Kind.all,
      (∀ kinds ∈ (Symbol.goal g).guard?, ahead ∈ kinds) → (Symbol.goal g).guard? ≠ none →
        (g.expand ahead).toOption ≠ none := by decide +kernel
  have hfree : (Symbol.goal g).guard? = none := by
    cases hguard : (Symbol.goal g).guard? with
    | none => rfl
    | some kinds =>
      have hsome := table g g.mem_all ahead ahead.mem_all h (by rw [hguard]; exact Option.some_ne_none _)
      rw [herror] at hsome
      exact absurd rfl hsome
  cases g <;> simp only [Goal.expand] at herror <;> (try split at herror) <;> cases herror <;>
    first | rfl | cases hfree

namespace Recognizer

/-- Each step keeps the stack guarded: behind a token, a remark or a record nothing has to be picked. -/
theorem preserved_guarded : Preserved fun _ stack s => Guarded s.lookahead.kind stack where
  advance := fun h => guarded_of_free h.2 _
  expand := by
    intro passed g stack s symbols h hexpand
    exact guarded_expand s.position h hexpand
  log := fun h => guarded_of_free h.2 _
  record := fun h => guarded_of_free h.2 _

/-- A misfit on a guarded stack is no fault of a symbol that was picked. -/
theorem Misfit.isLive {s : Recognizer} {stack : List Symbol} {fault : ParseFault}
    (h : s.Misfit stack fault) (hguarded : Guarded s.lookahead.kind stack) : fault.isLive = true := by
  cases h with
  | @token kind stack hne =>
    refine decide_eq_true fun hmem => ?_
    -- a statement's first token stands on the stack only where it is the next one
    have hguard : ∀ kind ∈ Kind.statementStarts, (Symbol.token kind).guard? = some [kind] := by decide
    exact hne (List.mem_singleton.mp (hguarded.1 [kind] (hguard kind hmem)))
  | goal herror => exact isLive_of_expand hguarded.1 herror

/-- **A guarded run meets no fault of a symbol that was picked.** -/
theorem run_isLive (stack : List Symbol) (s : Recognizer) (h : Guarded s.lookahead.kind stack)
    {fault : ParseFault} (hfault : (s.run stack).fault = some fault) : fault.isLive = true := by
  obtain ⟨word, left, -, hguarded, -, hmisfit⟩ := preserved_guarded.run stack s [] h
  exact (hmisfit hfault).isLive hguarded

end Recognizer

namespace Outcome

open Recognizer

/-- What was passed inside the list are the kinds in front of the place where the run stopped. -/
theorem map_kind_take_stopIndex {tokens : List Token} {word : List Kind}
    (hpass : (Recognizer.ofTokens tokens).Passes word (programEnding tokens).state)
    (hlength : word.length ≤ tokens.length) :
    (tokens.take (stopIndex tokens)).map Token.kind = word := by
  have hstop : stopIndex tokens = 0 + word.length := hpass.position
  have hkinds := hpass.kinds
  rw [kindsAhead_of_le hlength] at hkinds
  rw [hstop, Nat.zero_add]
  exact hkinds

/-- **Errors tell the truth.**  Behind the tokens that were passed, each kind that the error names as
    missing would have gone on to a program; an error about tokens behind a program stands behind a
    program.  Errors that ask for a statement, for a relational operator alone, for the first token of
    a statement, or that are about a token stream do not occur. -/
theorem failure_trueAfter {tokens : List Token} {error : ParseError}
    (h : (ofTokens tokens).failure = some error) :
    error.fault.TrueAfter ((tokens.take (stopIndex tokens)).map Token.kind) := by
  obtain ⟨word, hpass, hlength, -⟩ := viable_of_failure h
  rw [map_kind_take_stopIndex hpass hlength]
  have herror : (programEnding tokens).programError? = some error := h
  cases hfault : (programEnding tokens).fault with
  | some fault =>
    rw [Ending.programError?_of_fault hfault] at herror
    cases herror
    have hlive : fault.isLive = true :=
      run_isLive [.goal .program] _ (guarded_of_free (by decide) _) hfault
    exact ParseFault.trueAfter_of_wanted hlive (viable_wanted hfault hpass)
  | none =>
    rw [Ending.programError?_of_none hfault] at herror
    split at herror
    · cases herror
    · cases herror
      obtain ⟨block, hblock, hpassed⟩ := block_of_recognize hfault
      rw [hpass.word_eq hpassed]
      exact yields_program_iff.mpr ⟨block, rfl, hblock⟩

/-- The tokens of `IF x < 1 :`. -/
def openConditional : List Token :=
  [⟨.ifWord, "IF", 1⟩, ⟨.identifier, "x", 1⟩, ⟨.lessThan, "<", 1⟩, ⟨.number, "1", 1⟩,
    ⟨.colon, ":", 1⟩]

/-- With `ENDIF` or `ELSE` they could have gone on to a program. -/
theorem failure_trueAfter_openConditional :
    (ofTokens openConditional).failure = some ⟨.incompleteIf, 1⟩ ∧
      Viable [.ifWord, .identifier, .lessThan, .number, .colon, .endifWord] ∧
      Viable [.ifWord, .identifier, .lessThan, .number, .colon, .elseWord] := by
  have hfault : (programEnding openConditional).fault = some .incompleteIf := by
    simp [programEnding, openConditional, Recognizer.ofTokens]
  have hposition : (programEnding openConditional).state.position = 5 := by
    simp [programEnding, openConditional, Recognizer.ofTokens]
  have hline : (programEnding openConditional).state.line = 1 := by
    simp [programEnding, openConditional, Recognizer.ofTokens, Recognizer.line]
  have hfailure : (ofTokens openConditional).failure = some ⟨.incompleteIf, 1⟩ := by
    show (programEnding openConditional).programError? = _
    rw [Ending.programError?_of_fault hfault, Recognizer.error, hline]
  have htrue := failure_trueAfter hfailure
  rw [stopIndex, hposition] at htrue
  exact ⟨hfailure, htrue⟩

end Outcome

/-! ## Tokens behind a program -/

/-- Two end tokens lie ahead where the next two tokens are end tokens, as far as there are any. -/
theorem Recognizer.kindAt_endOfFile_iff_take (s : Recognizer) (n : Nat) :
    s.kindAt n = .endOfFile ∧ s.kindAt (n + 1) = .endOfFile ↔
      ∀ token ∈ (s.rest.drop n).take 2, token.kind = .endOfFile := by
  have hfirst : s.rest[n]? = (s.rest.drop n)[0]? := by rw [List.getElem?_drop, Nat.add_zero]
  have hsecond : s.rest[n + 1]? = (s.rest.drop n)[1]? := by rw [List.getElem?_drop]
  rw [kindAt, kindAt, hfirst, hsecond]
  rcases s.rest.drop n with - | ⟨first, - | ⟨second, behind⟩⟩
  · simp
  · simp
  · simp

namespace Outcome

open Recognizer

/-- The tokens from the first end token on. -/
def fromEnd (tokens : List Token) : List Token :=
  tokens.dropWhile fun token => token.kind != .endOfFile

/-- In front of the first end token there is none. -/
theorem fromEnd_append {front behind : List Token} (h : Kind.endOfFile ∉ front.map Token.kind) :
    fromEnd (front ++ behind) = fromEnd behind := by
  refine List.dropWhile_append_of_pos fun token hmem => ?_
  have hne : token.kind ≠ .endOfFile := fun hkind => h (List.mem_map.mpr ⟨token, hmem, hkind⟩)
  simpa using hne

theorem fromEnd_cons {token : Token} (h : token.kind = .endOfFile) (tokens : List Token) :
    fromEnd (token :: tokens) = token :: tokens := by
  simp [fromEnd, h]

/-- A token list is accepted if a block comes first, and the next two tokens are end tokens, as far as
    there are any. -/
theorem accepted_iff {tokens : List Token} :
    (ofTokens tokens).failure = none ↔
      ∃ front behind, tokens = front ++ behind ∧
        Nonterminal.block.Yields (front.map Token.kind) ∧
        ∀ token ∈ behind.take 2, token.kind = .endOfFile := by
  show ((Recognizer.ofTokens tokens).recognize .program).programError? = none ↔ _
  rw [programError?_recognize_iff]
  constructor
  · rintro ⟨word, hword, hkinds, hends⟩
    have hlength : word.length ≤ tokens.length :=
      length_le_of_kindsAhead hkinds (hword.endOfFile_not_mem (by decide))
    rw [kindsAhead_of_le hlength] at hkinds
    refine ⟨tokens.take word.length, tokens.drop word.length, (List.take_append_drop _ _).symm, ?_,
      (kindAt_endOfFile_iff_take _ _).mp hends⟩
    rw [show (tokens.take word.length).map Token.kind = word from hkinds]
    exact hword
  · rintro ⟨front, behind, rfl, hblock, hends⟩
    have hlength : (front.map Token.kind).length = front.length := List.length_map _
    refine ⟨_, hblock, ?_, (kindAt_endOfFile_iff_take _ _).mpr ?_⟩
    · have hle : front.length ≤ (Recognizer.ofTokens (front ++ behind)).rest.length := by
        show front.length ≤ (front ++ behind).length
        simp
      rw [hlength, kindsAhead_of_le hle]
      exact congrArg (List.map Token.kind) List.take_left
    · rw [hlength]
      show ∀ token ∈ ((front ++ behind).drop front.length).take 2, _
      rw [List.drop_left]
      exact hends

/-- **What goes unnoticed behind the end of a program.**  A token list is accepted in spite of a token
    behind its first end token that is no end token exactly if it starts with a block and two end
    tokens, and the token stands behind these: the recognizer looks at one token behind the end. -/
theorem unnoticed_iff (tokens : List Token) :
    (ofTokens tokens).failure = none ∧ (∃ token ∈ fromEnd tokens, token.kind ≠ .endOfFile) ↔
      ∃ front first second behind, tokens = front ++ first :: second :: behind ∧
        Nonterminal.block.Yields (front.map Token.kind) ∧
        first.kind = .endOfFile ∧ second.kind = .endOfFile ∧
        ∃ token ∈ behind, token.kind ≠ .endOfFile := by
  constructor
  · rintro ⟨haccepted, token, hmem, hne⟩
    obtain ⟨front, behind, rfl, hblock, hends⟩ := accepted_iff.mp haccepted
    rw [fromEnd_append (hblock.endOfFile_not_mem (by decide))] at hmem
    rcases behind with - | ⟨first, - | ⟨second, behind⟩⟩
    · cases hmem
    · have hfirst : first.kind = .endOfFile := hends first (by simp)
      rw [fromEnd_cons hfirst] at hmem
      exact absurd (List.mem_singleton.mp hmem ▸ hfirst) hne
    · have hfirst : first.kind = .endOfFile := hends first (by simp)
      have hsecond : second.kind = .endOfFile := hends second (by simp)
      refine ⟨front, first, second, behind, rfl, hblock, hfirst, hsecond, token, ?_, hne⟩
      -- the two end tokens themselves are none of the others
      rw [fromEnd_cons hfirst] at hmem
      rcases List.mem_cons.mp hmem with rfl | hmem
      · exact absurd hfirst hne
      · rcases List.mem_cons.mp hmem with rfl | hmem
        · exact absurd hsecond hne
        · exact hmem
  · rintro ⟨front, first, second, behind, rfl, hblock, hfirst, hsecond, token, hmem, hne⟩
    refine ⟨accepted_iff.mpr ⟨front, _, rfl, hblock, ?_⟩, token, ?_, hne⟩
    · simp [hfirst, hsecond]
    · rw [fromEnd_append (hblock.endOfFile_not_mem (by decide)), fromEnd_cons hfirst]
      exact List.mem_cons_of_mem _ (List.mem_cons_of_mem _ hmem)

/-- Two end tokens and a name. -/
def nameBehindTwoEnds : List Token := [.endOfFile 1, .endOfFile 1, ⟨.identifier, "x", 1⟩]

/-- The name goes unnoticed. -/
theorem unnoticed_nameBehindTwoEnds :
    (ofTokens nameBehindTwoEnds).failure = none ∧
      ¬∀ token ∈ fromEnd nameBehindTwoEnds, token.kind = .endOfFile := by
  constructor
  · simp [nameBehindTwoEnds, Outcome.ofTokens, Ending.programError?, Ending.error?,
      Recognizer.ofTokens]
  · decide

end Outcome

end CalcFrontEnd
