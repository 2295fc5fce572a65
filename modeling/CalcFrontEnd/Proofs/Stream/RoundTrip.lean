/-
  THE ROUND TRIP OF A TOKEN STREAM — loading undoes writing.

  1. **Writing** — seen through its words, the line of a token is its kind's name and the words of its
     lexeme (`words_render`).  The line of an error starts with a word that is no marker
     (`words_message`), and the marker line behind it is one.  No line holds a newline.

  2. **Loading** — so each marker stands right below the one line that it is about, and takes nothing
     else away: the entries of a written scan are its tokens (`mapM_entries`), one line further on for
     each token and two for each error.

  3. **Result** — `load_write`: the tokens come back in order, each with its own kind, its lexeme with
     single spaces between the words, and the line of the stream it was written to.
-/
import CalcFrontEnd.Proofs.Stream.Entries

namespace CalcFrontEnd.TokenStream

open Text

/-! ## Written lines -/

/-- A kind's name is one word, and it leaves room in its column. -/
theorem name_fits (kind : Kind) :
    kind.name.toList ≠ [] ∧ kind.name.toList.any isBlank = false ∧
      kind.name.length < Token.lexemeColumn := by
  have table : ∀ kind ∈ Kind.all, kind.name.toList ≠ [] ∧
      kind.name.toList.any isBlank = false ∧
      kind.name.length < Token.lexemeColumn := by decide +kernel
  exact table kind kind.mem_all

/-- The words of a token's line: the name of its kind, and those of its lexeme. -/
theorem words_render (token : Token) :
    words token.render.toList = token.kind.name.toList :: words token.lexeme.toList := by
  obtain ⟨hne, hsolid, hfits⟩ := name_fits token.kind
  -- the name is followed by at least one space
  obtain ⟨n, hn⟩ : ∃ n, Token.lexemeColumn - token.kind.name.length = n + 1 :=
    ⟨Token.lexemeColumn - token.kind.name.length - 1, by omega⟩
  have hspaces : ∀ c ∈ List.replicate n ' ', isBlank c = true := by
    intro c hc
    rw [List.eq_of_mem_replicate hc]
    decide
  have hrender : token.render.toList =
      token.kind.name.toList ++ ' ' :: (List.replicate n ' ' ++ token.lexeme.toList) := by
    simp [Token.render, Token.fillColumn, hn, List.replicate_succ]
  rw [hrender, words_append_blank (by decide), words_of_solid hne hsolid,
    words_blanks_append hspaces]
  rfl

/-- A number is written without a newline. -/
theorem newline_not_mem_toString (n : Nat) : '\n' ∉ (toString n).toList := by
  intro h
  rw [Nat.toString_eq_ofList_toDigits, String.toList_ofList] at h
  exact absurd (Nat.isDigit_of_mem_toDigits (by decide) (by decide) h) (by decide)

/-- An error's message starts with a word that is no marker. -/
theorem words_message (error : LexicalError) :
    ∃ others, words error.message.toList = "Lexical".toList :: others := by
  have hfront : "Lexical Error: ".toList = "Lexical".toList ++ ' ' :: "Error: ".toList := by
    decide +kernel
  unfold LexicalError.message
  simp only [String.toList_append, List.append_assoc, hfront, List.cons_append]
  rw [words_append_blank (by decide), words_of_solid (by decide +kernel) (by decide +kernel)]
  exact ⟨_, rfl⟩

theorem newline_not_mem_message (error : LexicalError) : '\n' ∉ error.message.toList := by
  have hfront : '\n' ∉ "Lexical Error: ".toList := by decide +kernel
  have hsummary : '\n' ∉ error.fault.summary.toList := by cases error.fault <;> decide +kernel
  have hmiddle : '\n' ∉ " (Error at Line ".toList := by decide +kernel
  have hline := newline_not_mem_toString error.line
  have hback : '\n' ∉ ")".toList := by decide +kernel
  unfold LexicalError.message
  simp only [String.toList_append, List.mem_append, not_or]
  exact ⟨⟨⟨⟨hfront, hsummary⟩, hmiddle⟩, hline⟩, hback⟩

/-! ## Streams that can be read back -/

/-- What the items of a stream must be for it to be read back: no token is a marker, and no lexeme
    breaks its line. -/
def Writable (items : List Item) : Prop :=
  ∀ token, .token token ∈ items → token.kind ≠ .error ∧ '\n' ∉ token.lexeme.toList

theorem Writable.tail {item : Item} {items : List Item} (h : Writable (item :: items)) :
    Writable items := fun token hmem => h token (List.mem_cons_of_mem _ hmem)

/-- The lines of a stream as words. -/
def streamWords (items : List Item) : List (List (List Char)) :=
  (items.flatMap itemLines).map fun line => words line.toList

theorem streamWords_token (token : Token) (items : List Item) :
    streamWords (.token token :: items) =
      (token.kind.name.toList :: words token.lexeme.toList) :: streamWords items := by
  show words token.render.toList :: streamWords items = _
  rw [words_render]

theorem streamWords_error (error : LexicalError) (items : List Item) :
    streamWords (.error error :: items) =
      words error.message.toList :: marker :: streamWords items := by
  have hmarker : words Kind.error.name.toList = marker := by decide +kernel
  show words error.message.toList :: words Kind.error.name.toList :: streamWords items = _
  rw [hmarker]

/-- No line of a stream is empty or breaks into two. -/
theorem newline_not_mem_itemLines {items : List Item} (h : Writable items) :
    ∀ line ∈ items.flatMap itemLines, line.toList ≠ [] ∧ '\n' ∉ line.toList := by
  have hname : ∀ kind : Kind, kind.name.toList ≠ [] ∧ '\n' ∉ kind.name.toList := by
    intro kind
    obtain ⟨hne, hsolid, -⟩ := name_fits kind
    exact ⟨hne, fun hmem => absurd (by decide) (List.any_eq_false.mp hsolid _ hmem)⟩
  intro line hline
  obtain ⟨item, hitem, hline⟩ := List.mem_flatMap.mp hline
  cases item with
  | token token =>
    obtain rfl : line = token.render := List.mem_singleton.mp hline
    obtain ⟨hne, hnewline⟩ := hname token.kind
    have hlexeme := (h token hitem).2
    have hspaces : '\n' ∉ List.replicate (Token.lexemeColumn - token.kind.name.length) ' ' :=
      fun hmem => absurd (List.eq_of_mem_replicate hmem) (by decide)
    simp only [Token.render, Token.fillColumn, String.toList_append, String.toList_ofList,
      List.mem_append, not_or]
    exact ⟨by simp [hne], ⟨hnewline, hspaces⟩, hlexeme⟩
  | error error =>
    have hcases : line = error.message ∨ line = Kind.error.name := by simpa [itemLines] using hline
    rcases hcases with rfl | rfl
    · refine ⟨?_, newline_not_mem_message error⟩
      intro hempty
      obtain ⟨others, hothers⟩ := words_message error
      rw [hempty] at hothers
      cases hothers
    · exact hname .error

/-- The lines of a stream come back with their words. -/
theorem words_lines_write {items : List Item} (h : Writable items) :
    (lines (write items).toList).map words = streamWords items := by
  have hlines : ∀ text ∈ (items.flatMap itemLines).map String.toList, text ≠ [] ∧ '\n' ∉ text := by
    intro text htext
    obtain ⟨line, hline, rfl⟩ := List.mem_map.mp htext
    exact newline_not_mem_itemLines h line hline
  have hwrite : (write items).toList =
      ['\n'].intercalate ((items.flatMap itemLines).map String.toList) :=
    String.toList_intercalate
  rw [hwrite, words_lines_intercalate hlines, List.map_map]
  rfl

/-! ## Loading a written stream -/

/-- A lexeme with single spaces between its words, and none around them. -/
def normalized (lexeme : String) : String :=
  " ".intercalate ((words lexeme.toList).map String.ofList)

/-- The tokens of a stream whose first line has the number `line`. -/
def restored (line : Nat) : List Item → List Token
  | [] => []
  | .token token :: items =>
    ⟨token.kind, normalized token.lexeme, line⟩ :: restored (line + 1) items
  | .error _ :: items => restored (line + 2) items

/-- Only the marker's name makes a marker. -/
theorem cons_ne_marker {name : List Char} (h : name ≠ Kind.error.name.toList)
    (others : List (List Char)) : name :: others ≠ marker :=
  fun heq => h (List.head_eq_of_cons_eq heq)

/-- No other kind has the marker's name. -/
theorem name_ne_marker {kind : Kind} (h : kind ≠ .error) :
    kind.name.toList ≠ Kind.error.name.toList := by
  intro hname
  have hread := Kind.ofName?_name h
  rw [String.toList_inj.mp hname, Kind.ofName?_error] at hread
  cases hread

/-- A stream does not start with a marker. -/
theorem head?_streamWords_ne {items : List Item} (h : Writable items) :
    (streamWords items).head? ≠ some marker := by
  cases items with
  | nil => exact (nomatch ·)
  | cons item items =>
    intro hhead
    cases item with
    | token token =>
      rw [streamWords_token] at hhead
      have hkind := (h token List.mem_cons_self).1
      exact cons_ne_marker (name_ne_marker hkind) _ (Option.some.inj hhead)
    | error error =>
      obtain ⟨others, hothers⟩ := words_message error
      rw [streamWords_error, hothers] at hhead
      exact cons_ne_marker (by decide +kernel) _ (Option.some.inj hhead)

/-- The entry of a token's line is the token, with its lexeme normalized. -/
theorem token_entry {kind : Kind} (h : kind ≠ .error) (lexeme : String) (line : Nat) :
    Entry.token ⟨line, kind.name.toList, words lexeme.toList⟩ =
      .ok ⟨kind, normalized lexeme, line⟩ := by
  simp only [Entry.token, String.ofList_toList, Kind.ofName?_name h]
  rfl

/-- **The entries of a written stream are its tokens**: a marker takes away the message above it and
    nothing else. -/
theorem mapM_entries {items : List Item} (h : Writable items) (line : Nat) :
    (entries line (streamWords items)).mapM Entry.token = .ok (restored line items) := by
  induction items generalizing line with
  | nil => rfl
  | cons item items ih =>
    cases item with
    | token token =>
      have hkind := (h token List.mem_cons_self).1
      have hkeep : ¬(token.kind.name.toList :: words token.lexeme.toList = marker ∨
          (streamWords items).head? = some marker) := by
        rintro (hmarker | hmarker)
        · exact cons_ne_marker (name_ne_marker hkind) _ hmarker
        · exact head?_streamWords_ne h.tail hmarker
      rw [streamWords_token, entries_cons, if_neg hkeep, List.mapM_cons, token_entry hkind, ih h.tail]
      rfl
    | error error =>
      obtain ⟨others, hothers⟩ := words_message error
      have hmessage : "Lexical".toList :: others = marker ∨
          (marker :: streamWords items).head? = some marker := Or.inr rfl
      have hmarker : [Kind.error.name.toList] = marker ∨
          (streamWords items).head? = some marker := Or.inl rfl
      rw [streamWords_error, hothers, entries_cons, if_pos hmessage]
      show (entries (line + 1) ([Kind.error.name.toList] :: streamWords items)).mapM _ = _
      rw [entries_cons, if_pos hmarker]
      exact ih h.tail (line + 2)

/-- A written stream can be loaded. -/
theorem load_write_eq {items : List Item} (h : Writable items) :
    load (write items) = .ok (restored 1 items) := by
  unfold load
  rw [words_lines_write h]
  exact mapM_entries h 1

/-! ## Where a token comes back -/

/-- How many tokens there are among the items. -/
def tokenCount (items : List Item) : Nat := (items.filterMap Item.token?).length

/-- How many errors there are among the items. -/
def errorCount (items : List Item) : Nat := (items.filterMap Item.error?).length

@[simp] theorem tokenCount_token (token : Token) (items : List Item) :
    tokenCount (.token token :: items) = tokenCount items + 1 := rfl

@[simp] theorem tokenCount_error (error : LexicalError) (items : List Item) :
    tokenCount (.error error :: items) = tokenCount items := rfl

@[simp] theorem errorCount_token (token : Token) (items : List Item) :
    errorCount (.token token :: items) = errorCount items := rfl

@[simp] theorem errorCount_error (error : LexicalError) (items : List Item) :
    errorCount (.error error :: items) = errorCount items + 1 := rfl

/-- One token comes back for each. -/
theorem length_restored (line : Nat) (items : List Item) :
    (restored line items).length = tokenCount items := by
  induction items generalizing line with
  | nil => rfl
  | cons item items ih =>
    cases item with
    | token token => rw [restored, List.length_cons, ih, tokenCount_token]
    | error error => rw [restored, ih, tokenCount_error]

/-- The items behind others come back further down: by one line for each token in front of them, and
    by two for each error. -/
theorem restored_append (line : Nat) (before items : List Item) :
    restored line (before ++ items) = restored line before ++
      restored (line + tokenCount before + 2 * errorCount before) items := by
  induction before generalizing line with
  | nil => rfl
  | cons item before ih =>
    cases item with
    | token token =>
      have hline : line + 1 + tokenCount before + 2 * errorCount before =
          line + (tokenCount before + 1) + 2 * errorCount before := by omega
      rw [tokenCount_token, errorCount_token, List.cons_append, restored, restored, ih, hline]
      rfl
    | error error =>
      have hline : line + 2 + tokenCount before + 2 * errorCount before =
          line + tokenCount before + 2 * (errorCount before + 1) := by omega
      rw [tokenCount_error, errorCount_error, List.cons_append, restored, restored, ih, hline]

/-- Where a token comes back, and as what. -/
theorem getElem?_restored (before : List Item) (token : Token) (after : List Item) :
    (restored 1 (before ++ .token token :: after))[tokenCount before]? = some
      { kind := token.kind
        lexeme := normalized token.lexeme
        line := 1 + tokenCount before + 2 * errorCount before } := by
  rw [restored_append, ← length_restored 1 before, List.getElem?_append_right (Nat.le_refl _),
    Nat.sub_self, length_restored]
  rfl

/-- **Loading undoes writing.**  A stream of tokens and errors, where no token is a marker and no
    lexeme holds a newline, is loaded.  There are as many tokens as were written, and each stands at
    its place among them, with its own kind, its lexeme normalized, and a line number that counts one
    line for each token in front of it and two for each error. -/
theorem load_write {items : List Item} (hkind : ∀ token, .token token ∈ items → token.kind ≠ .error)
    (hlexeme : ∀ token, .token token ∈ items → '\n' ∉ token.lexeme.toList) :
    ∃ tokens, load (write items) = .ok tokens ∧
      tokens.length = tokenCount items ∧
      ∀ before token after, items = before ++ .token token :: after →
        tokens[tokenCount before]? = some
          { kind := token.kind
            lexeme := normalized token.lexeme
            line := 1 + tokenCount before + 2 * errorCount before } := by
  refine ⟨restored 1 items, load_write_eq fun token hmem => ⟨hkind token hmem, hlexeme token hmem⟩,
    length_restored 1 items, ?_⟩
  rintro before token after rfl
  exact getElem?_restored before token after

/-- Errors one behind the other, and a lexeme with odd blanks and the marker's name in it. -/
def oddItems : List Item :=
  [.error ⟨.illegalCharacter, "@z", 1⟩, .token ⟨.string, "\"a\r \u0085Error\"", 1⟩,
   .error ⟨.invalidNumber, "1.", 2⟩, .error ⟨.unterminatedString, "\"", 2⟩, .token (.endOfFile 2)]

theorem load_write_oddItems :
    ∃ tokens, load (write oddItems) = .ok tokens ∧ tokens.length = 2 ∧
      tokens[0]? = some ⟨.string, "\"a Error\"", 3⟩ ∧ tokens[1]? = some ⟨.endOfFile, "", 8⟩ := by
  have hitems : ∀ token ∈ oddItems.filterMap Item.token?,
      token.kind ≠ .error ∧ '\n' ∉ token.lexeme.toList := by decide +kernel
  have hwritable : Writable oddItems := fun token hmem =>
    hitems token (List.mem_filterMap.mpr ⟨_, hmem, rfl⟩)
  obtain ⟨tokens, hload, hlength, hplace⟩ := load_write (fun token hmem => (hwritable token hmem).1)
    (fun token hmem => (hwritable token hmem).2)
  refine ⟨tokens, hload, hlength, ?_, ?_⟩
  · show tokens[tokenCount (oddItems.take 1)]? = _
    rw [hplace (oddItems.take 1) _ (oddItems.drop 2) rfl]
    decide +kernel
  · show tokens[tokenCount (oddItems.take 4)]? = _
    rw [hplace (oddItems.take 4) _ [] rfl]
    decide +kernel

end CalcFrontEnd.TokenStream
