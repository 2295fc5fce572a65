/-
  AGREEMENT — the two ways through the front end come to the same verdict.

  1. **Scans** — every token of a scan can be written to a stream and read back (`writable_scan`), and the
     end token stands once, at the end (`endsOnce_scan`).

  2. **Programs** — on tokens that end once, a run for a program leaves nothing behind it.  So a failure
     is the run's own, and it is at a token of the list (`misfit_of_failure`).

  3. **Streams** — what a stream gives back has the kinds of the tokens that were written
     (`map_kind_restored`).  The recognizer sees no more than these.

  4. **Result** — `check_agrees_with_stream`: the stream can be loaded; trace, record, fault and the token
     of the failure are the same, and the two lines cited are that token's in the source and in the
     stream.
-/
import CalcFrontEnd.FrontEnd
import CalcFrontEnd.Proofs.Lexis.Partition
import CalcFrontEnd.Proofs.Recognizer.Acceptance
import CalcFrontEnd.Proofs.Recognizer.Blindness
import CalcFrontEnd.Proofs.Stream.RoundTrip

namespace CalcFrontEnd

open Lexis Recognizer TokenStream

/-! ## Scans -/

/-- The items of a scan can be written to a stream and read back. -/
theorem writable_scan (source : String) : Writable (Scanner.scan source) := by
  obtain ⟨front, last, hscan, hlexeme⟩ := Scanner.scan_ends source
  intro token hmem
  rw [hscan] at hmem
  rcases List.mem_append.mp hmem with hmem | hmem
  · have htoken := hlexeme token hmem
    exact ⟨htoken.kind_ne.2, htoken.newline_not_mem⟩
  · obtain rfl : token = .endOfFile last := Item.token.inj (List.mem_singleton.mp hmem)
    exact ⟨(fun h => nomatch h), List.not_mem_nil⟩

/-- `EndsOnce tokens` — the last token is the end token, and no other is. -/
def EndsOnce (tokens : List Token) : Prop :=
  ∃ front last, tokens = front ++ [.endOfFile last] ∧ ∀ token ∈ front, token.kind ≠ .endOfFile

theorem endsOnce_scan (source : String) :
    EndsOnce ((Scanner.scan source).filterMap Item.token?) := by
  obtain ⟨front, last, hscan, hlexeme⟩ := Scanner.scan_ends source
  refine ⟨front.filterMap Item.token?, last, by rw [hscan, List.filterMap_append]; rfl, ?_⟩
  intro token hmem
  obtain ⟨item, hitem, htoken⟩ := List.mem_filterMap.mp hmem
  cases item with
  | token other =>
    cases htoken
    exact (hlexeme _ hitem).kind_ne.1
  | error error => cases htoken

/-! ## Programs that end once -/

/-- A word without an end token that lies ahead comes to its end in front of the list's. -/
theorem EndsOnce.length_lt {tokens : List Token} (h : EndsOnce tokens) {word : List Kind}
    (hkinds : (Recognizer.ofTokens tokens).kindsAhead word.length = word)
    (hword : Kind.endOfFile ∉ word) : word.length < tokens.length := by
  have hle : word.length ≤ tokens.length := length_le_of_kindsAhead hkinds hword
  rcases Nat.lt_or_eq_of_le hle with hlt | heq
  · exact hlt
  · -- a word as long as the list would have the list's end token in it
    exfalso
    apply hword
    have hall : word = tokens.map Token.kind := by
      rw [← hkinds, kindsAhead_of_le hle, heq]
      exact congrArg _ List.take_length
    obtain ⟨front, last, rfl, -⟩ := h
    rw [hall]
    simp [Token.endOfFile]

/-- The end token lies ahead at the list's last token and behind it, and nowhere else. -/
theorem EndsOnce.length_le_of_kindAt {tokens : List Token} (h : EndsOnce tokens) {n : Nat}
    (hn : (Recognizer.ofTokens tokens).kindAt n = .endOfFile) : tokens.length ≤ n + 1 := by
  obtain ⟨front, last, rfl, hfront⟩ := h
  rcases Nat.lt_or_ge n front.length with hlt | hge
  · have htoken : (front ++ [Token.endOfFile last])[n]? = some front[n] := by
      rw [List.getElem?_append_left hlt, List.getElem?_eq_getElem hlt]
    have hkind : front[n].kind = .endOfFile := by
      have hat : ((front ++ [Token.endOfFile last])[n]?.map Token.kind).getD .endOfFile = .endOfFile :=
        hn
      rw [htoken] at hat
      exact hat
    exact absurd hkind (hfront _ (List.getElem_mem hlt))
  · rw [List.length_append]
    exact Nat.succ_le_succ hge

/-- A run for a program that gets through has the whole list behind it. -/
theorem EndsOnce.kind_lookahead {tokens : List Token} (h : EndsOnce tokens)
    (hfault : (Outcome.programEnding tokens).fault = none) :
    (Outcome.programEnding tokens).state.lookahead.kind = .endOfFile := by
  obtain ⟨word, -, hpass⟩ := block_of_recognize hfault
  have hkinds := hpass.kinds
  rw [List.length_append] at hkinds
  have hend := (kindsAhead_eq_concat_iff.mp hkinds).2
  have hnext := kind_lookahead_of_passes hpass
  rw [kindAt_of_length_le (h.length_le_of_kindAt hend)] at hnext
  exact hnext

/-- A run for a program that does not get through stops at a token of the list. -/
theorem EndsOnce.stopIndex_lt {tokens : List Token} (h : EndsOnce tokens) {fault : ParseFault}
    (hfault : (Outcome.programEnding tokens).fault = some fault) :
    Outcome.stopIndex tokens < tokens.length := by
  obtain ⟨word, hword, hpass⟩ := endOfFile_not_mem_of_fault hfault
  have hposition : Outcome.stopIndex tokens = 0 + word.length := hpass.position
  have hlength := h.length_lt hpass.kinds hword
  omega

/-- **A failure on tokens that end once is a misfit at one of them.** -/
theorem EndsOnce.misfit_of_failure {tokens : List Token} (h : EndsOnce tokens) {error : ParseError}
    (hfailure : (Outcome.ofTokens tokens).failure = some error) :
    Outcome.stopIndex tokens < tokens.length ∧ error.fault ≠ .trailingTokens ∧
      ∀ name, error.fault ≠ .unknownTokenKind name := by
  rcases (Ending.eq_error_of_programError? hfailure).2 with hfault | ⟨hfault, hne⟩
  · obtain ⟨left, hmisfit⟩ := misfit_of_fault hfault
    exact ⟨h.stopIndex_lt hfault, hmisfit.fault_ne⟩
  · exact absurd (h.kind_lookahead hfault) hne

/-! ## Tokens that come back from a stream -/

/-- The kinds of a written stream come back. -/
theorem map_kind_restored (line : Nat) (items : List Item) :
    (restored line items).map Token.kind = (items.filterMap Item.token?).map Token.kind := by
  induction items generalizing line with
  | nil => rfl
  | cons item items ih =>
    cases item with
    | token token =>
      show token.kind :: (restored (line + 1) items).map Token.kind = _
      rw [ih]
      rfl
    | error error => exact ih (line + 2)

/-- The items in front of a token, found by its index. -/
theorem exists_token_at {items : List Item} {index : Nat} (h : index < tokenCount items) :
    ∃ before token after, items = before ++ .token token :: after ∧ tokenCount before = index := by
  induction items generalizing index with
  | nil => exact absurd h (Nat.not_lt_zero _)
  | cons item items ih =>
    cases item with
    | token token =>
      cases index with
      | zero => exact ⟨[], token, items, rfl, rfl⟩
      | succ index =>
        obtain ⟨before, found, after, rfl, hcount⟩ := ih (Nat.lt_of_succ_lt_succ h)
        exact ⟨.token token :: before, found, after, rfl, congrArg (· + 1) hcount⟩
    | error error =>
      obtain ⟨before, found, after, rfl, hcount⟩ := ih h
      exact ⟨.error error :: before, found, after, rfl, hcount⟩

/-- A token stands at its index among the tokens. -/
theorem getElem?_tokens (before : List Item) (token : Token) (after : List Item) :
    ((before ++ .token token :: after).filterMap Item.token?)[tokenCount before]? = some token := by
  rw [List.filterMap_append, tokenCount, List.getElem?_append_right (Nat.le_refl _), Nat.sub_self]
  rfl

/-- An error that cites a token of the list cites its line. -/
theorem failure_at_token {tokens : List Token} {error : ParseError} {token : Token}
    (hfailure : (Outcome.ofTokens tokens).failure = some error)
    (htoken : tokens[Outcome.stopIndex tokens]? = some token) : error = ⟨error.fault, token.line⟩ := by
  have hline : error.line = token.line := by
    have hcited := Outcome.line_of_failure hfailure
    rw [htoken] at hcited
    exact hcited
  rw [← hline]

/-! ## The two ways -/

/-- **Checking a source text and recognizing its token stream agree.**  The stream can be loaded, and
    trace and record are the same.  Either both ways succeed, or they fail with the same fault at the
    same token, whose line in the source the one cites and whose line in the stream the other: one
    line for each token up to it and two for each error in front of it.  Tokens behind the program
    are never found. -/
theorem check_agrees_with_stream (source : String) :
    ∃ loaded, load (scanToStream source) = .ok loaded ∧
      (check source).2.trace = (recognizeStream (scanToStream source)).trace ∧
      (check source).2.derivations = (recognizeStream (scanToStream source)).derivations ∧
      ((check source).2.failure = none ∧ (recognizeStream (scanToStream source)).failure = none ∨
        ∃ fault before token after,
          Scanner.scan source = before ++ .token token :: after ∧
          Outcome.stopIndex ((Scanner.scan source).filterMap Item.token?) = tokenCount before ∧
          Outcome.stopIndex loaded = tokenCount before ∧
          (check source).2.failure = some ⟨fault, token.line⟩ ∧
          (recognizeStream (scanToStream source)).failure =
            some ⟨fault, tokenCount before + 1 + 2 * errorCount before⟩ ∧
          fault ≠ .trailingTokens ∧ ∀ name, fault ≠ .unknownTokenKind name) := by
  have hload : load (scanToStream source) = .ok (restored 1 (Scanner.scan source)) :=
    load_write_eq (writable_scan source)
  have hstream : recognizeStream (scanToStream source) =
      Outcome.ofTokens (restored 1 (Scanner.scan source)) := by
    unfold recognizeStream
    rw [hload]
  have hcheck : (check source).2 =
      Outcome.ofTokens ((Scanner.scan source).filterMap Item.token?) := rfl
  obtain ⟨htrace, hderivations, hfault, hindex⟩ :=
    Outcome.ofTokens_alike (map_kind_restored 1 (Scanner.scan source)).symm
  rw [hstream, hcheck]
  refine ⟨_, hload, htrace, hderivations, ?_⟩
  cases hfailure : (Outcome.ofTokens ((Scanner.scan source).filterMap Item.token?)).failure with
  | none =>
    rw [hfailure] at hfault
    exact Or.inl ⟨rfl, Option.map_eq_none_iff.mp hfault.symm⟩
  | some error =>
    rw [hfailure] at hfault
    obtain ⟨other, hother, hsame⟩ := Option.map_eq_some_iff.mp hfault.symm
    -- the token of the failure, and the items in front of it
    obtain ⟨hlt, hne⟩ := (endsOnce_scan source).misfit_of_failure hfailure
    obtain ⟨before, token, after, hscan, hcount⟩ := exists_token_at hlt
    rw [hscan] at hindex hfailure hother hcount ⊢
    have hstop : Outcome.stopIndex (restored 1 (before ++ .token token :: after)) =
        tokenCount before := by rw [← hindex, ← hcount]
    -- there it stands in both lists, and each error cites its line
    have hhere := failure_at_token hfailure (hcount ▸ getElem?_tokens before token after)
    have hthere := failure_at_token hother
      (by rw [hstop]; exact getElem?_restored before token after)
    refine Or.inr ⟨error.fault, before, token, after, rfl, hcount.symm, hstop,
      congrArg some hhere, ?_, hne⟩
    rw [hother, hthere, hsame, Nat.add_comm 1]

end CalcFrontEnd
