/-
  DEPENDENCE — what an outcome depends on, and what it does not.

  1. **Tokens further on** — `AgreeUpTo stop s t`: two recognizers differ in the tokens behind index `stop`
     at most.  One token of lookahead is all a step consults, so a run that comes no further than
     `stop` is the same for both, step by step (`simulates_agreeUpTo`).  The line of the end tokens is
     that of the last token and may differ, but such a run sees no end token that is not in the list.

  2. **Lexemes and lines** — that recognizers which differ in these run alike is known (`run_alike`).
     What is left is the line of an error: it is that of the token at the place where the run stopped,
     or of the last token if that place is the list's end (`exists_cited`).

  3. **Results** — `ofTokens_eq_of_agree` and `ofTokens_of_kinds`.
-/
import CalcFrontEnd.Proofs.Recognizer.Prefix

namespace CalcFrontEnd

namespace Recognizer

/-! ## Tokens further on -/

/-- `AgreeUpTo stop s t` — the two recognizers differ in the tokens behind index `stop` at most, and at
    that index there is a token. -/
structure AgreeUpTo (stop : Nat) (s t : Recognizer) : Prop where
  inside : stop < s.position + s.rest.length
  tokens : ∀ i, s.position + i ≤ stop → s.rest[i]? = t.rest[i]?
  position : s.position = t.position
  trace : s.trace = t.trace
  derivations : s.derivations = t.derivations

namespace AgreeUpTo

variable {stop : Nat} {s t : Recognizer}

/-- Up to the index they see the same token next. -/
theorem lookahead (h : AgreeUpTo stop s t) (hstop : s.position ≤ stop) :
    s.lookahead = t.lookahead := by
  have hinside := h.inside
  have hfirst : s.rest[0]? = t.rest[0]? := h.tokens 0 hstop
  have hlength : 0 < s.rest.length := by omega
  rw [Recognizer.lookahead, Recognizer.lookahead, List.headD_eq_head?_getD,
    List.headD_eq_head?_getD, List.head?_eq_getElem?, List.head?_eq_getElem?, ← hfirst,
    List.getElem?_eq_getElem hlength]
  rfl

theorem advance (h : AgreeUpTo stop s t) (hstop : s.position ≤ stop) :
    AgreeUpTo stop s.advance t.advance := by
  have hinside := h.inside
  refine ⟨?_, ?_, ?_, h.trace, h.derivations⟩
  · show stop < s.position + 1 + s.rest.tail.length
    rw [List.length_tail]
    omega
  · intro i hi
    have hi' : s.position + 1 + i ≤ stop := hi
    show s.rest.tail[i]? = t.rest.tail[i]?
    rw [List.getElem?_tail, List.getElem?_tail]
    exact h.tokens (i + 1) (by omega)
  · show s.position + 1 = t.position + 1
    rw [h.position]

theorem log (h : AgreeUpTo stop s t) (remark : Remark) :
    AgreeUpTo stop (s.log remark) (t.log remark) := by
  refine ⟨h.inside, h.tokens, h.position, ?_, h.derivations⟩
  show s.trace.push remark = t.trace.push remark
  rw [h.trace]

theorem record (h : AgreeUpTo stop s t) (constituent : Constituent) (start : Nat) :
    AgreeUpTo stop (s.record constituent start) (t.record constituent start) := by
  refine ⟨h.inside, h.tokens, h.position, h.trace, ?_⟩
  show s.derivations.push ⟨constituent, start, s.position⟩ =
    t.derivations.push ⟨constituent, start, t.position⟩
  rw [h.derivations, h.position]

end AgreeUpTo

/-- **A run sees nothing behind the token at which it stops**: on tokens that agree so far, runs do the
    same. -/
theorem simulates_agreeUpTo (stop : Nat) : Simulates stop (AgreeUpTo stop) where
  position := fun h => h.position
  lookahead := fun h hstop => congrArg Token.kind (h.lookahead hstop)
  advance := AgreeUpTo.advance
  log := AgreeUpTo.log
  record := AgreeUpTo.record

/-- An ending leaves the error that its fault and its next token make. -/
theorem programError?_congr {e f : Ending} (hfault : e.fault = f.fault)
    (hlookahead : e.state.lookahead = f.state.lookahead) : e.programError? = f.programError? := by
  have herror : e.state.error = f.state.error := by
    funext fault
    rw [error, error, line, line, hlookahead]
  rw [Ending.programError?, Ending.programError?, Ending.error?, Ending.error?, hfault, herror,
    hlookahead]

end Recognizer

namespace Outcome

open Recognizer

/-- **The outcome depends on nothing behind the token at which recognizing stops**, as when it fails there:
    token lists that agree up to that token, and on it, have the same outcome, with the same error on
    the same line. -/
theorem ofTokens_eq_of_agree {tokens others : List Token}
    (hstop : stopIndex tokens < tokens.length)
    (hagree : ∀ i ≤ stopIndex tokens, others[i]? = tokens[i]?) :
    ofTokens others = ofTokens tokens ∧ stopIndex others = stopIndex tokens := by
  have hstart : AgreeUpTo (stopIndex tokens) (Recognizer.ofTokens tokens)
      (Recognizer.ofTokens others) := by
    refine ⟨?_, ?_, rfl, rfl, rfl⟩
    · show stopIndex tokens < 0 + tokens.length
      omega
    · intro i hi
      have hi' : 0 + i ≤ stopIndex tokens := hi
      exact (hagree i (by omega)).symm
  obtain ⟨hfault, hstate⟩ : (programEnding tokens).fault = (programEnding others).fault ∧
      AgreeUpTo (stopIndex tokens) (programEnding tokens).state (programEnding others).state :=
    (simulates_agreeUpTo _).run [.goal .program] _ hstart (Nat.le_refl (stopIndex tokens))
  have hlookahead := hstate.lookahead (Nat.le_refl (stopIndex tokens))
  refine ⟨?_, hstate.position.symm⟩
  show Outcome.mk (programEnding others).state.trace.toList
      (programEnding others).state.derivations.toList (programEnding others).programError? =
    Outcome.mk (programEnding tokens).state.trace.toList
      (programEnding tokens).state.derivations.toList (programEnding tokens).programError?
  rw [programError?_congr hfault hlookahead, hstate.trace, hstate.derivations]

/-- The tokens of `x := 1 y ;`, with the second name on a line of its own. -/
def nameForSemicolon : List Token :=
  [⟨.identifier, "x", 1⟩, ⟨.assign, ":=", 1⟩, ⟨.number, "1", 1⟩, ⟨.identifier, "y", 2⟩,
    ⟨.semicolon, ";", 2⟩]

/-- The second name is reported in the same way if the list ends there, and whatever comes behind it. -/
theorem ofTokens_eq_of_agree_nameForSemicolon :
    (ofTokens nameForSemicolon).failure = some ⟨.expectedToken .semicolon, 2⟩ ∧
      ofTokens (nameForSemicolon.take 4) = ofTokens nameForSemicolon ∧
      ofTokens (nameForSemicolon.take 4 ++ [.endOfFile 9, ⟨.error, "?", 9⟩]) =
        ofTokens nameForSemicolon := by
  have hfault : (programEnding nameForSemicolon).fault = some (.expectedToken .semicolon) := by
    simp [programEnding, nameForSemicolon, Recognizer.ofTokens]
  have hposition : (programEnding nameForSemicolon).state.position = 3 := by
    simp [programEnding, nameForSemicolon, Recognizer.ofTokens]
  have hline : (programEnding nameForSemicolon).state.line = 2 := by
    simp [programEnding, nameForSemicolon, Recognizer.ofTokens, Recognizer.line]
  have hstop : stopIndex nameForSemicolon = 3 := hposition
  have hinside : stopIndex nameForSemicolon < nameForSemicolon.length := by
    rw [hstop]
    decide
  refine ⟨?_, (ofTokens_eq_of_agree hinside ?_).1, (ofTokens_eq_of_agree hinside ?_).1⟩
  · show (programEnding nameForSemicolon).programError? = _
    rw [Ending.programError?_of_fault hfault, Recognizer.error, hline]
  · rw [hstop]
    decide
  · rw [hstop]
    decide

/-! ## Lexemes and lines -/

/-- `Cited tokens index token` — `token` is the one at an index of the list, or the last one if the index
    is the list's end. -/
def Cited (tokens : List Token) (index : Nat) (token : Token) : Prop :=
  tokens[index]? = some token ∨ index = tokens.length ∧ tokens.getLast? = some token

/-- The empty token list is a program. -/
theorem failure_nil : (ofTokens []).failure = none :=
  (programError?_recognize_iff _).mpr ⟨[], .expand (by decide) .nil .nil, rfl, rfl, rfl⟩

/-- **An error has the line of the token where recognizing stops**, or of the last token if it stops at
    the list's end; and it stops nowhere else. -/
theorem exists_cited {tokens : List Token} {error : ParseError}
    (h : (ofTokens tokens).failure = some error) :
    ∃ token, Cited tokens (stopIndex tokens) token ∧ error.line = token.line := by
  have hline := line_of_failure h
  have hle : stopIndex tokens ≤ tokens.length := by
    obtain ⟨word, hpass, hlength, -⟩ := viable_of_failure h
    have hposition : stopIndex tokens = 0 + word.length := hpass.position
    omega
  cases htoken : tokens[stopIndex tokens]? with
  | some token =>
    rw [htoken] at hline
    exact ⟨token, Or.inl htoken, hline⟩
  | none =>
    rw [htoken] at hline
    have hend : stopIndex tokens = tokens.length :=
      Nat.le_antisymm hle (List.getElem?_eq_none_iff.mp htoken)
    cases hlast : tokens.getLast? with
    | some token =>
      rw [hlast] at hline
      exact ⟨token, Or.inr ⟨hend, hlast⟩, hline⟩
    | none =>
      obtain rfl := List.getLast?_eq_none_iff.mp hlast
      rw [failure_nil] at h
      cases h

/-- **The outcome is blind to lexemes, and to lines but for citing them.**  On token lists of the same
    kinds the traces and the records are equal.  Both are accepted, or both fail with the same fault
    at the same index, each with the line of its own token there. -/
theorem ofTokens_of_kinds {tokens others : List Token}
    (h : tokens.map Token.kind = others.map Token.kind) :
    (ofTokens tokens).trace = (ofTokens others).trace ∧
      (ofTokens tokens).derivations = (ofTokens others).derivations ∧
      stopIndex tokens = stopIndex others ∧
      ((ofTokens tokens).failure = none ∧ (ofTokens others).failure = none ∨
        ∃ fault token other,
          (ofTokens tokens).failure = some ⟨fault, token.line⟩ ∧
          (ofTokens others).failure = some ⟨fault, other.line⟩ ∧
          Cited tokens (stopIndex tokens) token ∧ Cited others (stopIndex others) other) := by
  obtain ⟨htrace, hrecord, hfault, hstop⟩ := ofTokens_alike h
  refine ⟨htrace, hrecord, hstop, ?_⟩
  cases hfailure : (ofTokens tokens).failure with
  | none =>
    rw [hfailure] at hfault
    exact Or.inl ⟨rfl, Option.map_eq_none_iff.mp hfault.symm⟩
  | some error =>
    rw [hfailure] at hfault
    obtain ⟨error', hfailure', hsame⟩ := Option.map_eq_some_iff.mp hfault.symm
    obtain ⟨token, hcited, hline⟩ := exists_cited hfailure
    obtain ⟨other, hcited', hline'⟩ := exists_cited hfailure'
    refine Or.inr ⟨error.fault, token, other, ?_, ?_, hcited, hcited'⟩
    · rw [← hline]
    · rw [hfailure', ← hline', ← hsame]

/-- The tokens of `x := 1` with other lexemes, and lines in no order. -/
def renamedAssignment : List Token :=
  [⟨.identifier, "y", 7⟩, ⟨.assign, "=", 3⟩, ⟨.number, "", 5⟩]

/-- They miss the same semicolon, and cite a last line of their own. -/
theorem ofTokens_of_kinds_renamedAssignment :
    (ofTokens unfinishedAssignment).failure = some ⟨.expectedToken .semicolon, 2⟩ ∧
      (ofTokens renamedAssignment).failure = some ⟨.expectedToken .semicolon, 5⟩ := by
  have hfault : (programEnding unfinishedAssignment).fault = some (.expectedToken .semicolon) := by
    simp [programEnding, unfinishedAssignment, Recognizer.ofTokens]
  have hposition : (programEnding unfinishedAssignment).state.position = 3 := by
    simp [programEnding, unfinishedAssignment, Recognizer.ofTokens]
  have hline : (programEnding unfinishedAssignment).state.line = 2 := by
    simp [programEnding, unfinishedAssignment, Recognizer.ofTokens, Recognizer.line]
  have hfailure : (ofTokens unfinishedAssignment).failure = some ⟨.expectedToken .semicolon, 2⟩ := by
    show (programEnding unfinishedAssignment).programError? = _
    rw [Ending.programError?_of_fault hfault, Recognizer.error, hline]
  have hstop : stopIndex unfinishedAssignment = 3 := hposition
  have hkinds : unfinishedAssignment.map Token.kind = renamedAssignment.map Token.kind := rfl
  obtain ⟨-, -, hindex, hresult⟩ := ofTokens_of_kinds hkinds
  rw [← hindex, hstop, hfailure] at hresult
  rcases hresult with ⟨hnone, -⟩ | ⟨fault, token, other, hsame, hother, -, hcited⟩
  · cases hnone
  · obtain ⟨rfl, -⟩ := ParseError.mk.inj (Option.some.inj hsame)
    rcases hcited with hat | ⟨-, hlast⟩
    · cases hat
    · cases hlast
      exact ⟨hfailure, hother⟩

end Outcome

end CalcFrontEnd
