/-
  RUNS — what a recognizer sees ahead, and what one step of a run does.

  1. **Data** — `kindsAhead s n` are the kinds of the next `n` tokens; behind the list's end they are
     end tokens.  `s.Passes word t` says that `t` stands behind the tokens that `s` is in front of, and
     that `word` lists the kinds of these tokens.  Trace and record are left open.

  2. **Steps** — `run_token`, `run_goal`, … are the run's equations, one for each sort of symbol.

  3. **Evaluation** — on a list that is written out, `simp` works a run out.

  4. **Facts** — a word without an end token is passed inside the list (`length_le_of_kindsAhead`), so
     what stands behind the list can be told from what stands in it.

  5. **Errors** — `Ending.eq_error_of_programError?` says which errors a run for a program can leave: its
     own, or that of tokens behind it, and both at the next token.
-/
import CalcFrontEnd.Grammar.Outcome

namespace CalcFrontEnd.Recognizer

/-! ## What lies ahead -/

/-- The kinds of the next `n` tokens, those behind the list's end included. -/
def kindsAhead (s : Recognizer) : Nat → List Kind
  | 0 => []
  | n + 1 => s.lookahead.kind :: s.advance.kindsAhead n

@[simp] theorem length_kindsAhead (s : Recognizer) (n : Nat) : (s.kindsAhead n).length = n := by
  induction n generalizing s with
  | zero => rfl
  | succ n ih => simp [kindsAhead, ih]

/-- The first of the kinds that lie ahead. -/
theorem take_kindsAhead (s : Recognizer) {k n : Nat} (h : k ≤ n) :
    (s.kindsAhead n).take k = s.kindsAhead k := by
  induction k generalizing s n with
  | zero => rfl
  | succ k ih =>
    obtain ⟨m, rfl⟩ : ∃ m, n = m + 1 := ⟨n - 1, by omega⟩
    show _ :: (s.advance.kindsAhead m).take k = _ :: s.advance.kindsAhead k
    rw [ih s.advance (by omega)]

/-- The kind of the next token. -/
theorem kind_lookahead (s : Recognizer) :
    s.lookahead.kind = (s.rest.head?.map Token.kind).getD .endOfFile := by
  unfold lookahead
  cases s.rest <;> rfl

/-- What lies ahead depends on the tokens that are left, and on nothing else. -/
theorem kindsAhead_congr {s t : Recognizer} (h : s.rest = t.rest) (n : Nat) :
    s.kindsAhead n = t.kindsAhead n := by
  induction n generalizing s t with
  | zero => rfl
  | succ n ih =>
    have hkind : s.lookahead.kind = t.lookahead.kind := by rw [kind_lookahead, kind_lookahead, h]
    have hadvance : s.advance.rest = t.advance.rest := by simp only [advance, h]
    show _ :: _ = _ :: _
    rw [hkind, ih hadvance]

@[simp] theorem kindsAhead_log (s : Recognizer) (remark : Remark) (n : Nat) :
    (s.log remark).kindsAhead n = s.kindsAhead n :=
  kindsAhead_congr (s := s.log remark) (t := s) rfl n

@[simp] theorem kindsAhead_record (s : Recognizer) (constituent : Constituent) (start n : Nat) :
    (s.record constituent start).kindsAhead n = s.kindsAhead n :=
  kindsAhead_congr (s := s.record constituent start) (t := s) rfl n

/-- Inside the list, what lies ahead are the kinds of its tokens. -/
theorem kindsAhead_of_le {s : Recognizer} {n : Nat} (h : n ≤ s.rest.length) :
    s.kindsAhead n = (s.rest.take n).map Token.kind := by
  induction n generalizing s with
  | zero => simp [kindsAhead]
  | succ n ih =>
    cases hrest : s.rest with
    | nil => simp [hrest] at h
    | cons token tokens =>
      have hadvance : s.advance.rest = tokens := by simp [advance, hrest]
      have hlength : n ≤ s.advance.rest.length := by
        rw [hadvance]
        rw [hrest] at h
        simpa using h
      simp [kindsAhead, kind_lookahead, hrest, ih hlength, hadvance]

/-- The kind of the token that `n` tokens lie in front of. -/
def kindAt (s : Recognizer) (n : Nat) : Kind := (s.rest[n]?.map Token.kind).getD .endOfFile

/-- Behind the list there are end tokens. -/
theorem kindAt_of_length_le {s : Recognizer} {n : Nat} (h : s.rest.length ≤ n) :
    s.kindAt n = .endOfFile := by
  rw [kindAt, List.getElem?_eq_none h]
  rfl

/-- An end token lies there at the list's end, or if the list has one there. -/
theorem kindAt_eq_endOfFile_iff {s : Recognizer} {n : Nat} (h : n ≤ s.rest.length) :
    s.kindAt n = .endOfFile ↔
      n = s.rest.length ∨ s.rest[n]?.map Token.kind = some .endOfFile := by
  rcases Nat.lt_or_eq_of_le h with hlt | heq
  · have hne : n ≠ s.rest.length := Nat.ne_of_lt hlt
    simp [kindAt, hlt, hne]
  · simp [kindAt, heq]

/-- One kind further ahead. -/
theorem kindsAhead_succ (s : Recognizer) (n : Nat) :
    s.kindsAhead (n + 1) = s.kindsAhead n ++ [s.kindAt n] := by
  induction n generalizing s with
  | zero =>
    show [s.lookahead.kind] = [s.kindAt 0]
    rw [kind_lookahead, kindAt, List.head?_eq_getElem?]
  | succ n ih =>
    have hkindAt : s.advance.kindAt n = s.kindAt (n + 1) := by
      simp [kindAt, advance]
    show s.lookahead.kind :: s.advance.kindsAhead (n + 1) = _
    rw [ih, hkindAt]
    rfl

/-- A word and one more kind lie ahead. -/
theorem kindsAhead_eq_concat_iff {s : Recognizer} {word : List Kind} {kind : Kind} :
    s.kindsAhead (word.length + 1) = word ++ [kind] ↔
      s.kindsAhead word.length = word ∧ s.kindAt word.length = kind := by
  rw [kindsAhead_succ]
  constructor
  · intro h
    obtain ⟨hword, hkind⟩ := List.append_inj h (by simp)
    exact ⟨hword, List.head_eq_of_cons_eq hkind⟩
  · rintro ⟨hword, rfl⟩
    rw [hword]

/-- The next token is the first of a word that lies ahead, or what is behind an empty word. -/
theorem kind_lookahead_of_kindsAhead {s : Recognizer} {word : List Kind} {next : Kind}
    (h : s.kindsAhead (word.length + 1) = word ++ [next]) :
    s.lookahead.kind = word.headD next := by
  have hhead := congrArg (List.headD · next) h
  cases word <;> exact hhead

/-- A word without an end token that lies ahead lies inside the list. -/
theorem length_le_of_kindsAhead {s : Recognizer} {word : List Kind}
    (h : s.kindsAhead word.length = word) (hword : Kind.endOfFile ∉ word) :
    word.length ≤ s.rest.length := by
  induction word generalizing s with
  | nil => exact Nat.zero_le _
  | cons kind word ih =>
    have hhead : s.lookahead.kind = kind ∧ s.advance.kindsAhead word.length = word := by
      simpa [kindsAhead] using h
    obtain ⟨hkind, htail⟩ := hhead
    cases hrest : s.rest with
    | nil =>
      -- there the lookahead would be an end token, and the word has none
      rw [kind_lookahead_of_rest_eq_nil hrest] at hkind
      exact absurd hkind (fun h => hword (h ▸ List.mem_cons_self))
    | cons token tokens =>
      have := ih htail (fun h => hword (List.mem_cons_of_mem _ h))
      simp [advance, hrest] at this
      simp
      omega

/-! ## Passing tokens -/

/-- `s.Passes word t` — `t` stands behind the next tokens of `s`, whose kinds are `word`. -/
structure Passes (s : Recognizer) (word : List Kind) (t : Recognizer) : Prop where
  kinds : s.kindsAhead word.length = word
  rest : t.rest = s.rest.drop word.length
  position : t.position = s.position + word.length
  lastLine : t.lastLine = s.lastLine

theorem Passes.refl (s : Recognizer) : s.Passes [] s := ⟨rfl, rfl, rfl, rfl⟩

/-- One more token in front. -/
theorem Passes.cons {s t : Recognizer} {word : List Kind} (h : s.advance.Passes word t) :
    s.Passes (s.lookahead.kind :: word) t := by
  refine ⟨?_, ?_, ?_, h.lastLine⟩
  · show _ :: _ = _ :: _
    rw [h.kinds]
  · rw [h.rest]
    simp [advance]
  · rw [h.position]
    show s.position + 1 + word.length = s.position + (word.length + 1)
    omega

/-- The start may differ in trace and record. -/
theorem Passes.of_start {s s' t : Recognizer} {word : List Kind} (h : s'.Passes word t)
    (hrest : s'.rest = s.rest) (hposition : s'.position = s.position)
    (hlastLine : s'.lastLine = s.lastLine) : s.Passes word t := by
  refine ⟨?_, ?_, ?_, ?_⟩
  · rw [← kindsAhead_congr hrest, h.kinds]
  · rw [h.rest, hrest]
  · rw [h.position, hposition]
  · rw [h.lastLine, hlastLine]

theorem Passes.of_log {s t : Recognizer} {word : List Kind} {remark : Remark}
    (h : (s.log remark).Passes word t) : s.Passes word t := h.of_start rfl rfl rfl

theorem Passes.of_record {s t : Recognizer} {word : List Kind} {constituent : Constituent}
    {start : Nat} (h : (s.record constituent start).Passes word t) : s.Passes word t :=
  h.of_start rfl rfl rfl

/-- The token behind what was passed is the next one. -/
theorem Passes.kindAt_length {s t : Recognizer} {word : List Kind} (h : s.Passes word t) :
    s.kindAt word.length = t.lookahead.kind := by
  rw [kind_lookahead, h.rest, List.head?_drop, kindAt]

/-- Behind the kinds that were passed lie the kinds that lie ahead. -/
theorem Passes.kindsAhead_add {s t : Recognizer} {word : List Kind} (h : s.Passes word t) (n : Nat) :
    s.kindsAhead (word.length + n) = word ++ t.kindsAhead n := by
  induction n with
  | zero => rw [Nat.add_zero, h.kinds, kindsAhead, List.append_nil]
  | succ n ih =>
    have hkind : s.kindAt (word.length + n) = t.kindAt n := by
      unfold kindAt
      rw [h.rest, List.getElem?_drop]
    rw [← Nat.add_assoc, kindsAhead_succ, ih, hkind, kindsAhead_succ, List.append_assoc]

/-- One word passed, and another one behind it. -/
theorem Passes.trans {s t r : Recognizer} {word other : List Kind} (h : s.Passes word t)
    (h' : t.Passes other r) : s.Passes (word ++ other) r := by
  refine ⟨?_, ?_, ?_, ?_⟩
  · rw [List.length_append, h.kindsAhead_add, h'.kinds]
  · rw [h'.rest, h.rest, List.drop_drop, List.length_append]
  · have hposition := h.position
    have hposition' := h'.position
    rw [List.length_append]
    omega
  · rw [h'.lastLine, h.lastLine]

/-! ## The equations of a run -/

theorem run_nil (s : Recognizer) : s.run [] = ⟨s, none⟩ := by rw [run]

theorem run_token {s : Recognizer} {kind : Kind} (h : s.lookahead.kind = kind)
    (stack : List Symbol) : s.run (.token kind :: stack) = s.advance.run stack := by
  rw [run, if_pos h]

theorem run_token_of_ne {s : Recognizer} {kind : Kind} (h : s.lookahead.kind ≠ kind)
    (stack : List Symbol) : s.run (.token kind :: stack) = ⟨s, some (.expectedToken kind)⟩ := by
  rw [run, if_neg h]

theorem run_goal {s : Recognizer} {g : Goal} {symbols : List Symbol}
    (h : g.expand s.lookahead.kind = .ok symbols) (stack : List Symbol) :
    s.run (.goal g :: stack) = s.run (symbols ++ (g.completion s.position ++ stack)) := by
  rw [run]
  split <;> simp_all

theorem run_goal_of_error {s : Recognizer} {g : Goal} {fault : ParseFault}
    (h : g.expand s.lookahead.kind = .error fault) (stack : List Symbol) :
    s.run (.goal g :: stack) = ⟨s, some fault⟩ := by
  rw [run]
  split <;> simp_all

theorem run_remark (s : Recognizer) (remark : Remark) (stack : List Symbol) :
    s.run (.remark remark :: stack) = (s.log remark).run stack := by
  rw [run]

theorem run_complete (s : Recognizer) (constituent : Constituent) (start : Nat)
    (stack : List Symbol) :
    s.run (.complete constituent start :: stack) = (s.record constituent start).run stack := by
  rw [run]

/-! ## Working a run out

  On a list of tokens that is written out, `simp` takes all the steps of a run.  These lemmas give each
  step for a recognizer whose fields are written out as well, so they leave any other run as it is. -/

section

variable (rest : List Token) (position lastLine : Nat) (trace : Array Remark)
  (derivations : Array Derivation)

@[simp] theorem lookahead_cons (token : Token) :
    lookahead ⟨token :: rest, position, lastLine, trace, derivations⟩ = token := rfl

@[simp] theorem lookahead_nil :
    lookahead ⟨[], position, lastLine, trace, derivations⟩ = .endOfFile lastLine := rfl

@[simp] theorem advance_mk :
    advance ⟨rest, position, lastLine, trace, derivations⟩ =
      ⟨rest.tail, position + 1, lastLine, trace, derivations⟩ := rfl

@[simp] theorem log_mk (remark : Remark) :
    log ⟨rest, position, lastLine, trace, derivations⟩ remark =
      ⟨rest, position, lastLine, trace.push remark, derivations⟩ := rfl

@[simp] theorem record_mk (constituent : Constituent) (start : Nat) :
    record ⟨rest, position, lastLine, trace, derivations⟩ constituent start =
      ⟨rest, position, lastLine, trace, derivations.push ⟨constituent, start, position⟩⟩ := rfl

@[simp] theorem run_token_mk (kind : Kind) (stack : List Symbol) :
    run (.token kind :: stack) ⟨rest, position, lastLine, trace, derivations⟩ =
      if (lookahead ⟨rest, position, lastLine, trace, derivations⟩).kind = kind then
        run stack (advance ⟨rest, position, lastLine, trace, derivations⟩)
      else ⟨⟨rest, position, lastLine, trace, derivations⟩, some (.expectedToken kind)⟩ := by
  rw [run]

@[simp] theorem run_goal_mk (g : Goal) (stack : List Symbol) :
    run (.goal g :: stack) ⟨rest, position, lastLine, trace, derivations⟩ =
      match g.expand (lookahead ⟨rest, position, lastLine, trace, derivations⟩).kind with
      | .ok symbols =>
        run (symbols ++ ((g.constituent?.map (.complete · position)).toList ++ stack))
          ⟨rest, position, lastLine, trace, derivations⟩
      | .error fault => ⟨⟨rest, position, lastLine, trace, derivations⟩, some fault⟩ := by
  have hcompletion :
      g.completion position = (g.constituent?.map (.complete · position)).toList := by
    unfold Goal.completion
    cases g.constituent? <;> rfl
  rw [run, ← hcompletion]
  split <;> simp_all

end

attribute [simp] run_nil run_remark run_complete recognize expect Goal.expand Goal.constituent?
  Kind.statementStarts Kind.additive Kind.multiplicative Kind.relational Token.endOfFile

/-! ## The error that a run leaves -/

namespace Ending

variable {ending : Ending}

theorem programError?_of_fault {fault : ParseFault} (h : ending.fault = some fault) :
    ending.programError? = some (ending.state.error fault) := by
  simp only [programError?, error?, h, Option.map_some]

theorem programError?_of_none (h : ending.fault = none) :
    ending.programError? = if ending.state.lookahead.kind = .endOfFile then none
      else some (ending.state.error .trailingTokens) := by
  simp only [programError?, error?, h, Option.map_none]

/-- There is no error if the run got through and nothing stands behind it. -/
theorem programError?_eq_none_iff :
    ending.programError? = none ↔
      ending.fault = none ∧ ending.state.lookahead.kind = .endOfFile := by
  cases hfault : ending.fault with
  | none => simp [programError?_of_none hfault]
  | some fault => simp [programError?_of_fault hfault]

/-- An error stands at the next token.  It is the run's own, or something stands behind a run that
    got through. -/
theorem eq_error_of_programError? {error : ParseError} (h : ending.programError? = some error) :
    error = ending.state.error error.fault ∧
      (ending.fault = some error.fault ∨
        ending.fault = none ∧ ending.state.lookahead.kind ≠ .endOfFile) := by
  cases hfault : ending.fault with
  | none =>
    rw [programError?_of_none hfault] at h
    split at h
    · cases h
    · rename_i hne
      cases h
      exact ⟨rfl, Or.inr ⟨rfl, hne⟩⟩
  | some fault =>
    rw [programError?_of_fault hfault] at h
    cases h
    exact ⟨rfl, Or.inl rfl⟩

end Ending

end CalcFrontEnd.Recognizer
