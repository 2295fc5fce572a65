/-
  NORMAL FORM — a token stream that can be loaded is normalized by writing it once.

  1. **Loading** — a loaded token is what some line holds (`exists_holds_of_load`), so its kind is not the
     marker's, and its lexeme is words with single spaces between them.

  2. **The crux (`normalized_of_holds`)** — such a lexeme is its own normal form, whatever blanks the line
     had, and it breaks no line.  So what is loaded lies where writing and loading undo each other.

  3. **Lines** — the only thing that the rewriting changes is the line of each token, which is its place
     (`renumbered`).  Neither the writing nor the recognizer looks at it.

  4. **Result** — `load_rewritten`: the same tokens come back, on lines one, two and so on, they are written
     as the same text, and the recognizer comes to the same end on both streams.
-/
import CalcFrontEnd.FrontEnd
import CalcFrontEnd.Proofs.Recognizer.Blindness
import CalcFrontEnd.Proofs.Stream.RoundTrip

namespace CalcFrontEnd.TokenStream

open Text

/-! ## What is loaded -/

/-- Where all entries are read, each token comes from one of them. -/
theorem exists_entry_of_mapM {entries : List Entry} {tokens : List Token}
    (h : entries.mapM Entry.token = .ok tokens) :
    ∀ token ∈ tokens, ∃ entry ∈ entries, entry.token = .ok token := by
  induction entries generalizing tokens with
  | nil =>
    cases h
    exact fun _ hmem => nomatch hmem
  | cons first others ih =>
    rw [List.mapM_cons] at h
    cases hfirst : first.token with
    | error error =>
      rw [hfirst] at h
      cases h
    | ok token =>
      cases hothers : others.mapM Entry.token with
      | error error =>
        rw [hfirst, hothers] at h
        cases h
      | ok rest =>
        rw [hfirst, hothers] at h
        cases h
        intro other hmem
        rcases List.mem_cons.mp hmem with rfl | hmem
        · exact ⟨first, List.mem_cons_self, hfirst⟩
        · obtain ⟨entry, hentry, htoken⟩ := ih hothers other hmem
          exact ⟨entry, List.mem_cons_of_mem _ hentry, htoken⟩

/-- **What is loaded is what some line holds.** -/
theorem exists_holds_of_load {text : String} {tokens : List Token} (h : load text = .ok tokens) :
    ∀ token ∈ tokens, ∃ i, Holds (lines text.toList) i token := by
  intro token hmem
  unfold load at h
  rw [entries_eq_survivors] at h
  obtain ⟨entry, hentry, htoken⟩ := exists_entry_of_mapM h token hmem
  obtain ⟨i, hsurvives, rfl⟩ := List.mem_map.mp hentry
  by_cases hnames : NamesKind (lines text.toList) i
  · obtain ⟨held, hheld, hholds⟩ := token_entryAt hnames
    rw [htoken] at hheld
    cases hheld
    exact ⟨i, hholds⟩
  · obtain ⟨line, name, rest, -, -, herror⟩ := token_entryAt_of_not hsurvives hnames
    rw [htoken] at herror
    cases herror

/-- Joining solid words by spaces makes no newline. -/
theorem newline_not_mem_intercalate {parts : List (List Char)}
    (h : ∀ word ∈ parts, word.any isBlank = false) : '\n' ∉ [' '].intercalate parts := by
  induction parts with
  | nil => exact List.not_mem_nil
  | cons word parts ih =>
    obtain ⟨hword, hparts⟩ := List.forall_mem_cons.mp h
    have hnewline : '\n' ∉ word := fun hmem => absurd (by decide) (List.any_eq_false.mp hword _ hmem)
    cases parts with
    | nil =>
      rw [List.intercalate_singleton]
      exact hnewline
    | cons next parts =>
      rw [List.intercalate_cons_of_ne_nil (List.cons_ne_nil next parts)]
      simp [hnewline, ih hparts]

/-- **A loaded lexeme is in normal form**, and it breaks no line. -/
theorem normalized_of_holds {texts : List (List Char)} {i : Nat} {token : Token}
    (h : Holds texts i token) :
    normalized token.lexeme = token.lexeme ∧ '\n' ∉ token.lexeme.toList := by
  obtain ⟨text, rest, -, hwords, hlexeme⟩ := h.words
  have hsolid : ∀ word ∈ rest, word ≠ [] ∧ word.any isBlank = false := by
    intro word hmem
    exact solid_of_mem_words (hwords ▸ List.mem_cons_of_mem _ hmem)
  have htext : token.lexeme.toList = [' '].intercalate rest := by
    rw [hlexeme, String.toList_intercalate, List.map_map]
    simp [Function.comp_def]
  constructor
  · rw [normalized, htext, words_intercalate hsolid, hlexeme]
  · rw [htext]
    exact newline_not_mem_intercalate fun word hmem => (hsolid word hmem).2

/-! ## Tokens in their places -/

/-- The tokens in order, each with its place as its line, the first on line one. -/
def renumbered (tokens : List Token) : List Token :=
  tokens.mapIdx fun i token => { token with line := i + 1 }

/-- Tokens without errors in between come back on lines that follow each other. -/
theorem restored_tokens {tokens : List Token} (h : ∀ token ∈ tokens, normalized token.lexeme = token.lexeme)
    (line : Nat) :
    restored line (tokens.map Item.token) =
      tokens.mapIdx fun i token => { token with line := i + line } := by
  induction tokens generalizing line with
  | nil => rfl
  | cons token tokens ih =>
    obtain ⟨htoken, htokens⟩ := List.forall_mem_cons.mp h
    rw [List.map_cons, restored, htoken, ih htokens, List.mapIdx_cons, Nat.zero_add]
    simp only [Nat.add_right_comm, Nat.add_assoc]

/-- A token has one line of a stream. -/
theorem flatMap_itemLines (tokens : List Token) :
    (tokens.map Item.token).flatMap itemLines = tokens.map Token.render := by
  rw [List.flatMap_map]
  exact List.flatMap_pure_eq_map Token.render tokens

/-- What does not look at lines finds the same tokens. -/
theorem map_renumbered {α : Type} {f : Token → α}
    (h : ∀ token line, f { token with line := line } = f token) (tokens : List Token) :
    (renumbered tokens).map f = tokens.map f := by
  apply List.ext_getElem?
  intro i
  rw [renumbered, List.getElem?_map, List.getElem?_mapIdx, List.getElem?_map, Option.map_map]
  exact congrArg (Option.map · tokens[i]?) (funext fun token => h token (i + 1))

/-- Writing does not look at lines. -/
theorem write_renumbered (tokens : List Token) :
    write ((renumbered tokens).map Item.token) = write (tokens.map Item.token) := by
  have hrender : (renumbered tokens).map Token.render = tokens.map Token.render :=
    map_renumbered (fun _ _ => rfl) tokens
  rw [write, write, flatMap_itemLines, flatMap_itemLines, hrender]

/-! ## Writing what was loaded -/

/-- What is loaded can be written, and its lexemes are in normal form. -/
theorem writable_of_load {text : String} {tokens : List Token} (h : load text = .ok tokens) :
    Writable (tokens.map Item.token) ∧ ∀ token ∈ tokens, normalized token.lexeme = token.lexeme := by
  constructor
  · intro token hmem
    obtain ⟨other, hother, heq⟩ := List.mem_map.mp hmem
    cases heq
    obtain ⟨i, hholds⟩ := exists_holds_of_load h token hother
    exact ⟨hholds.kind, (normalized_of_holds hholds).2⟩
  · intro token hmem
    obtain ⟨i, hholds⟩ := exists_holds_of_load h token hmem
    exact (normalized_of_holds hholds).1

/-- **Writing what was loaded normalizes a stream for good.**  Whatever blanks, empty lines and errors a
    stream has, if it is loaded, then writing its tokens makes a stream from which the same tokens are
    loaded, each on the line of its place.  They are written as the same text, and the recognizer comes
    to the same end on both streams but for the line that an error cites. -/
theorem load_rewritten {text : String} {tokens : List Token} (h : load text = .ok tokens) :
    load (write (tokens.map Item.token)) = .ok (renumbered tokens) ∧
      write ((renumbered tokens).map Item.token) = write (tokens.map Item.token) ∧
      (recognizeStream (write (tokens.map Item.token))).isValid = (recognizeStream text).isValid ∧
      (recognizeStream (write (tokens.map Item.token))).trace = (recognizeStream text).trace ∧
      (recognizeStream (write (tokens.map Item.token))).derivations =
        (recognizeStream text).derivations ∧
      (recognizeStream (write (tokens.map Item.token))).failure.map ParseError.fault =
        (recognizeStream text).failure.map ParseError.fault := by
  obtain ⟨hwritable, hnormal⟩ := writable_of_load h
  have hload : load (write (tokens.map Item.token)) = .ok (renumbered tokens) := by
    rw [load_write_eq hwritable, restored_tokens hnormal]
    rfl
  have hrewritten : recognizeStream (write (tokens.map Item.token)) =
      Outcome.ofTokens (renumbered tokens) := by rw [recognizeStream, hload]
  have hfirst : recognizeStream text = Outcome.ofTokens tokens := by rw [recognizeStream, h]
  have hkinds : (renumbered tokens).map Token.kind = tokens.map Token.kind :=
    map_renumbered (fun _ _ => rfl) tokens
  obtain ⟨htrace, hderivations, hfault, -⟩ := Outcome.ofTokens_alike hkinds
  rw [hrewritten, hfirst]
  refine ⟨hload, write_renumbered tokens, ?_, htrace, hderivations, hfault⟩
  -- validity is the absence of a failure, which the fault shows
  have hnone := congrArg Option.isNone hfault
  rwa [Option.isNone_map, Option.isNone_map] at hnone

/-- A message with its marker, empty lines, a marker below one of them, and blanks of several sorts. -/
def unevenStream : String :=
  "Lexical x\nError\n\n  Identifier \t x\u00a0y \n\nError\nEndofFile"

/-- It is loaded as two tokens, which stand on the first two lines when written. -/
theorem load_rewritten_unevenStream :
    load unevenStream = .ok [⟨.identifier, "x y", 4⟩, ⟨.endOfFile, "", 7⟩] ∧
      load (write [.token ⟨.identifier, "x y", 4⟩, .token ⟨.endOfFile, "", 7⟩]) =
        .ok [⟨.identifier, "x y", 1⟩, ⟨.endOfFile, "", 2⟩] := by
  have hload : load unevenStream = .ok [⟨.identifier, "x y", 4⟩, ⟨.endOfFile, "", 7⟩] := by
    decide +kernel
  exact ⟨hload, (load_rewritten hload).1⟩

end CalcFrontEnd.TokenStream
