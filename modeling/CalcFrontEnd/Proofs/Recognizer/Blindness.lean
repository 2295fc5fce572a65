/-
  BLINDNESS — the recognizer sees the kinds of its tokens and nothing else.

  1. **Two runs** — a relation between recognizers that see the same kind of token next, and that their
     steps keep, is kept by whole runs, which end with the same fault (`Simulates.run`).

  2. **Specification** — two recognizers are `Alike` if the tokens they have left are of the same kinds,
     and everything they have noted down is the same.  Lexemes and lines may differ.  Each step keeps
     recognizers alike, so runs do (`run_alike`).

  3. **Lines** — an error cites the line of the token at which the run stopped, and the line has no other
     use (`line_of_failure`).

  4. **Result** — on token lists of the same kinds the outcomes have the same trace, the same record and
     the same fault, and the runs stop at the same token (`ofTokens_alike`).
-/
import CalcFrontEnd.Proofs.Recognizer.Stop

namespace CalcFrontEnd

namespace Recognizer

/-! ## Two runs -/

/-- A run does not go back. -/
theorem position_le_run (stack : List Symbol) (s : Recognizer) :
    s.position ≤ (s.run stack).state.position := by
  obtain ⟨word, left, hstops⟩ := run_stops stack s
  have hposition := hstops.passes.position
  omega

/-- `Simulates stop R` — up to index `stop`, recognizers that `R` relates see the same kind of token next,
    and their steps lead to related ones. -/
structure Simulates (stop : Nat) (R : Recognizer → Recognizer → Prop) : Prop where
  position : ∀ {s t}, R s t → s.position = t.position
  lookahead : ∀ {s t}, R s t → s.position ≤ stop → s.lookahead.kind = t.lookahead.kind
  advance : ∀ {s t}, R s t → s.position ≤ stop → R s.advance t.advance
  log : ∀ {s t}, R s t → ∀ remark, R (s.log remark) (t.log remark)
  record : ∀ {s t}, R s t → ∀ constituent start,
    R (s.record constituent start) (t.record constituent start)

/-- **Related recognizers run alike**: if the one comes no further than `stop`, both end with the same
    fault, in related states. -/
theorem Simulates.run {stop : Nat} {R : Recognizer → Recognizer → Prop} (h : Simulates stop R)
    (stack : List Symbol) (s : Recognizer) {t : Recognizer} (hst : R s t)
    (hstop : (s.run stack).state.position ≤ stop) :
    (s.run stack).fault = (t.run stack).fault ∧ R (s.run stack).state (t.run stack).state := by
  induction stack, s using run.induct generalizing t with
  | case1 s =>
    rw [run_nil, run_nil]
    exact ⟨rfl, hst⟩
  | case2 s stack ih =>
    have hposition := Nat.le_trans (position_le_run _ s) hstop
    rw [run_token rfl] at hstop ⊢
    rw [run_token (h.lookahead hst hposition).symm]
    exact ih (h.advance hst hposition) hstop
  | case3 s kind stack hne =>
    have hahead := h.lookahead hst (Nat.le_trans (position_le_run _ s) hstop)
    rw [run_token_of_ne hne, run_token_of_ne (hahead ▸ hne)]
    exact ⟨rfl, hst⟩
  | case4 s g stack symbols hexpand ih =>
    have hahead := h.lookahead hst (Nat.le_trans (position_le_run _ s) hstop)
    rw [run_goal hexpand] at hstop ⊢
    rw [run_goal (hahead ▸ hexpand), ← h.position hst]
    exact ih hst hstop
  | case5 s g stack fault hexpand =>
    have hahead := h.lookahead hst (Nat.le_trans (position_le_run _ s) hstop)
    rw [run_goal_of_error hexpand, run_goal_of_error (hahead ▸ hexpand)]
    exact ⟨rfl, hst⟩
  | case6 s remark stack ih =>
    rw [run_remark] at hstop ⊢
    rw [run_remark]
    exact ih (h.log hst remark) hstop
  | case7 s constituent start stack ih =>
    rw [run_complete] at hstop ⊢
    rw [run_complete]
    exact ih (h.record hst constituent start) hstop

/-! ## Lexemes and lines -/

/-- `s.Alike t` — the two recognizers differ in lexemes and lines at most. -/
structure Alike (s t : Recognizer) : Prop where
  kinds : s.rest.map Token.kind = t.rest.map Token.kind
  position : s.position = t.position
  trace : s.trace = t.trace
  derivations : s.derivations = t.derivations

namespace Alike

variable {s t : Recognizer}

/-- They see the same kind of token next. -/
theorem lookahead (h : s.Alike t) : s.lookahead.kind = t.lookahead.kind := by
  have hhead := congrArg List.head? h.kinds
  rw [List.head?_map, List.head?_map] at hhead
  rw [kind_lookahead, kind_lookahead, hhead]

theorem advance (h : s.Alike t) : s.advance.Alike t.advance := by
  refine ⟨?_, ?_, h.trace, h.derivations⟩
  · show s.rest.tail.map Token.kind = t.rest.tail.map Token.kind
    rw [List.map_tail, List.map_tail, h.kinds]
  · show s.position + 1 = t.position + 1
    rw [h.position]

theorem log (h : s.Alike t) (remark : Remark) : (s.log remark).Alike (t.log remark) := by
  refine ⟨h.kinds, h.position, ?_, h.derivations⟩
  show s.trace.push remark = t.trace.push remark
  rw [h.trace]

theorem record (h : s.Alike t) (constituent : Constituent) (start : Nat) :
    (s.record constituent start).Alike (t.record constituent start) := by
  refine ⟨h.kinds, h.position, h.trace, ?_⟩
  show s.derivations.push ⟨constituent, start, s.position⟩ =
    t.derivations.push ⟨constituent, start, t.position⟩
  rw [h.derivations, h.position]

end Alike

theorem simulates_alike (stop : Nat) : Simulates stop Alike where
  position := fun h => h.position
  lookahead := fun h _ => h.lookahead
  advance := fun h _ => h.advance
  log := Alike.log
  record := Alike.record

/-- **Runs of recognizers that are alike end alike**, and with the same fault. -/
theorem run_alike (stack : List Symbol) (s : Recognizer) {t : Recognizer} (h : s.Alike t) :
    (s.run stack).fault = (t.run stack).fault ∧ (s.run stack).state.Alike (t.run stack).state :=
  (simulates_alike _).run stack s h (Nat.le_refl _)

/-- Endings that are alike leave errors with the same fault. -/
theorem fault_programError?_congr {e f : Ending} (hfault : e.fault = f.fault)
    (hstate : e.state.Alike f.state) :
    e.programError?.map ParseError.fault = f.programError?.map ParseError.fault := by
  cases h : e.fault with
  | some fault =>
    rw [Ending.programError?_of_fault h, Ending.programError?_of_fault (hfault ▸ h)]
    rfl
  | none =>
    rw [Ending.programError?_of_none h, Ending.programError?_of_none (hfault ▸ h), hstate.lookahead]
    by_cases hend : f.state.lookahead.kind = .endOfFile
    · rw [if_pos hend, if_pos hend]
    · rw [if_neg hend, if_neg hend]
      rfl

end Recognizer

namespace Outcome

open Recognizer

/-- The ending of the run for a whole program. -/
def programEnding (tokens : List Token) : Ending := (Recognizer.ofTokens tokens).recognize .program

/-- The index of the token at which the run for a whole program stops. -/
def stopIndex (tokens : List Token) : Nat := (programEnding tokens).state.position

/-- Where the run stops, the tokens from that index on are left. -/
theorem programEnding_rest (tokens : List Token) :
    (programEnding tokens).state.rest = tokens.drop (stopIndex tokens) ∧
      (programEnding tokens).state.lastLine = (tokens.getLast?.map Token.line).getD 1 := by
  obtain ⟨word, left, hstops⟩ := run_stops [.goal .program] (Recognizer.ofTokens tokens)
  have hposition : stopIndex tokens = 0 + word.length := hstops.passes.position
  refine ⟨?_, hstops.passes.lastLine⟩
  rw [hposition, Nat.zero_add]
  exact hstops.passes.rest

/-- **An error cites the line of the token at which the run stops**, or of the last one if it stops
    behind the list. -/
theorem line_of_failure {tokens : List Token} {error : ParseError}
    (h : (ofTokens tokens).failure = some error) :
    error.line = (tokens[stopIndex tokens]?.map Token.line).getD
      ((tokens.getLast?.map Token.line).getD 1) := by
  obtain ⟨hrest, hlast⟩ := programEnding_rest tokens
  have hline : error.line = (programEnding tokens).state.lookahead.line :=
    congrArg ParseError.line (Ending.eq_error_of_programError? h).1
  rw [hline]
  unfold lookahead
  rw [hrest, hlast, List.headD_eq_head?_getD, List.head?_drop]
  cases tokens[stopIndex tokens]? <;> rfl

/-- **The outcome depends on the kinds of the tokens alone**, but for the line that an error cites. -/
theorem ofTokens_alike {tokens others : List Token}
    (h : tokens.map Token.kind = others.map Token.kind) :
    (ofTokens tokens).trace = (ofTokens others).trace ∧
      (ofTokens tokens).derivations = (ofTokens others).derivations ∧
      (ofTokens tokens).failure.map ParseError.fault = (ofTokens others).failure.map ParseError.fault ∧
      stopIndex tokens = stopIndex others := by
  have hstart : (Recognizer.ofTokens tokens).Alike (Recognizer.ofTokens others) := ⟨h, rfl, rfl, rfl⟩
  obtain ⟨hfault, hstate⟩ := run_alike [.goal .program] _ hstart
  refine ⟨?_, ?_, fault_programError?_congr hfault hstate, hstate.position⟩
  · exact congrArg Array.toList hstate.trace
  · exact congrArg Array.toList hstate.derivations

end Outcome

end CalcFrontEnd
