/-
  ACCEPTANCE — the recognizer accepts the words of the grammar and no others.

  1. **Runs** — a run for a program gets through where a block and an end token lie ahead, and only there
     (`block_of_recognize`, `recognize_of_block`).  With the look at one more token behind them, a token
     list is accepted where a block and two end tokens lie ahead; behind the list end tokens never end.

  2. **Result** — `failure_eq_none_iff` says this in terms of the list: a block comes first, and behind
     it the list's end, or an end token with nothing or a second end token behind it.
-/
import CalcFrontEnd.Proofs.Recognizer.Stop

namespace CalcFrontEnd

namespace Recognizer

/-- A run for a program that gets through has passed a block and an end token. -/
theorem block_of_recognize {s : Recognizer} (h : (s.recognize .program).fault = none) :
    ∃ word, Nonterminal.block.Yields word ∧
      s.Passes (word ++ [.endOfFile]) (s.recognize .program).state := by
  obtain ⟨word, hword, hpass⟩ := derives_of_run h
  obtain ⟨u, rfl, hu⟩ := yields_program_iff.mp hword
  exact ⟨u, hu, hpass⟩

/-- In front of a block and an end token a run for a program gets through. -/
theorem recognize_of_block {s : Recognizer} {word : List Kind} (hword : Nonterminal.block.Yields word)
    (hahead : s.kindsAhead (word.length + 1) = word ++ [.endOfFile]) :
    (s.recognize .program).fault = none ∧
      s.Passes (word ++ [.endOfFile]) (s.recognize .program).state := by
  have hprogram : Derives (sententialForm [.goal .program]) (word ++ [.endOfFile]) :=
    yields_program_iff.mpr ⟨word, rfl, hword⟩
  -- nothing prolongs a program, so whatever comes behind the end token will do
  have hsettles : Settles (sententialForm [.goal .program]) (s.kindAt (word.length + 1)) :=
    ⟨fun _ _ => List.not_mem_nil, trivial⟩
  refine run_of_derives [.goal .program] s hprogram hsettles ?_
  rw [List.length_append, kindsAhead_succ]
  exact congrArg (· ++ _) hahead

/-- Behind a block and an end token the next token is the one at that distance. -/
theorem kind_lookahead_of_passes {s t : Recognizer} {word : List Kind}
    (h : s.Passes (word ++ [.endOfFile]) t) : t.lookahead.kind = s.kindAt (word.length + 1) := by
  rw [← h.kindAt_length, List.length_append]
  rfl

/-- A run for a program leaves no error exactly if a block and two end tokens lie ahead, in the list
    or behind it. -/
theorem programError?_recognize_iff (s : Recognizer) :
    (s.recognize .program).programError? = none ↔
      ∃ word, Nonterminal.block.Yields word ∧ s.kindsAhead word.length = word ∧
        s.kindAt word.length = .endOfFile ∧ s.kindAt (word.length + 1) = .endOfFile := by
  rw [Ending.programError?_eq_none_iff]
  constructor
  · rintro ⟨hfault, hend⟩
    obtain ⟨word, hword, hpass⟩ := block_of_recognize hfault
    have hkinds := hpass.kinds
    rw [List.length_append] at hkinds
    obtain ⟨hahead, hfirst⟩ := kindsAhead_eq_concat_iff.mp hkinds
    exact ⟨word, hword, hahead, hfirst, kind_lookahead_of_passes hpass ▸ hend⟩
  · rintro ⟨word, hword, hahead, hfirst, hsecond⟩
    obtain ⟨hfault, hpass⟩ :=
      recognize_of_block hword (kindsAhead_eq_concat_iff.mpr ⟨hahead, hfirst⟩)
    exact ⟨hfault, kind_lookahead_of_passes hpass ▸ hsecond⟩

/-- Where two end tokens lie behind the first `n` tokens of the list: at its end, or at an end token
    with nothing or another end token behind it. -/
theorem kindAt_endOfFile_twice_iff {s : Recognizer} {n : Nat} (hn : n ≤ s.rest.length) :
    s.kindAt n = .endOfFile ∧ s.kindAt (n + 1) = .endOfFile ↔
      n = s.rest.length ∨
        s.rest[n]?.map Token.kind = some .endOfFile ∧
          (n + 1 = s.rest.length ∨ s.rest[n + 1]?.map Token.kind = some .endOfFile) := by
  have hinside : s.rest[n]?.map Token.kind = some .endOfFile → n + 1 ≤ s.rest.length := by
    intro h
    obtain ⟨token, htoken, -⟩ := Option.map_eq_some_iff.mp h
    exact (List.getElem?_eq_some_iff.mp htoken).1
  constructor
  · rintro ⟨hfirst, hsecond⟩
    rcases (kindAt_eq_endOfFile_iff hn).mp hfirst with hend | htoken
    · exact Or.inl hend
    · exact Or.inr ⟨htoken, (kindAt_eq_endOfFile_iff (hinside htoken)).mp hsecond⟩
  · rintro (hend | ⟨htoken, hbehind⟩)
    · exact ⟨kindAt_of_length_le (by omega), kindAt_of_length_le (by omega)⟩
    · exact ⟨(kindAt_eq_endOfFile_iff hn).mpr (Or.inr htoken),
        (kindAt_eq_endOfFile_iff (hinside htoken)).mpr hbehind⟩

end Recognizer

/-- **The recognizer accepts exactly its grammar.**  The tokens in front of some index are a block,
    and at the index the list is at its end, or has an end token with nothing or another end token
    behind it. -/
theorem failure_eq_none_iff (tokens : List Token) :
    (Outcome.ofTokens tokens).failure = none ↔
      ∃ n ≤ tokens.length, Nonterminal.block.Yields ((tokens.take n).map Token.kind) ∧
        (n = tokens.length ∨
          tokens[n]?.map Token.kind = some .endOfFile ∧
            (n + 1 = tokens.length ∨ tokens[n + 1]?.map Token.kind = some .endOfFile)) := by
  -- the recognizer in front of the whole list
  obtain ⟨s, hs, hrest⟩ : ∃ s, s = Recognizer.ofTokens tokens ∧ s.rest = tokens := ⟨_, rfl, rfl⟩
  show ((Recognizer.ofTokens tokens).recognize .program).programError? = none ↔ _
  rw [← hs, s.programError?_recognize_iff, ← hrest]
  constructor
  · rintro ⟨word, hword, hkinds, hends⟩
    -- a block has no end token, so it lies inside the list
    have hinner : Kind.endOfFile ∉ word := hword.endOfFile_not_mem (by decide)
    have hlength := Recognizer.length_le_of_kindsAhead hkinds hinner
    refine ⟨word.length, hlength, ?_, (Recognizer.kindAt_endOfFile_twice_iff hlength).mp hends⟩
    rw [← Recognizer.kindsAhead_of_le hlength, hkinds]
    exact hword
  · rintro ⟨n, hn, hword, hbehind⟩
    have hlength : ((s.rest.take n).map Token.kind).length = n := by simp [hn]
    refine ⟨_, hword, ?_⟩
    rw [hlength]
    exact ⟨Recognizer.kindsAhead_of_le hn, (Recognizer.kindAt_endOfFile_twice_iff hn).mpr hbehind⟩

end CalcFrontEnd
