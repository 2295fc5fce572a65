/-
  ENTRIES — which lines of a token stream are read, said line by line.

  1. **Program** — the loader goes through the lines with a stack of entries, and a marker takes back the
     entry on top if that came from the line right above it.  Whether an entry stays is known only
     after the next line has been read.

  2. **Specification** — a line `survives` if it has a character that is no blank, is no marker line, and
     has no marker line right below it.  This looks at two lines and knows of no stack.

  3. **The crux (`readLines_append`)** — entries that no marker can reach any more lie at the bottom of
     the stack and stay as they are, so the lines to come are read as on an empty stack.  An entry is
     out of reach as soon as one more line has been read; hence `entries_cons`, which decides on a line
     by the line below it.

  4. **Result** — `load_survivors`: the tokens of a stream are what its surviving lines hold, and the
     first surviving line that names no kind is the error.
-/
import CalcFrontEnd.Proofs.Text.Words
import CalcFrontEnd.TokenStream
import Mathlib.Data.List.Forall2

namespace CalcFrontEnd.TokenStream

open Text

/-! ## One line more -/

/-- A line with words that is no marker line is an entry. -/
theorem readLine_of_ne {name : List Char} {lexeme : List (List Char)} (h : name :: lexeme ≠ marker)
    (read : List Entry) (line : Nat) :
    readLine read line (name :: lexeme) = ⟨line, name, lexeme⟩ :: read :=
  if_pos h

/-- A marker takes back the entry of the line right above it. -/
theorem readLine_marker (read : List Entry) (line : Nat) :
    readLine read line marker =
      if read.head?.any fun above => above.line + 1 = line then read.tail else read := by
  unfold marker readLine
  exact if_neg (not_not_intro rfl)

/-- A line changes nothing at the bottom of the stack, where no marker reaches. -/
theorem readLine_append (top : List Entry) {read : List Entry} {line : Nat}
    (h : ∀ entry ∈ read, entry.line + 1 < line) (words : List (List Char)) :
    readLine (top ++ read) line words = readLine top line words ++ read := by
  match words with
  | [] => rfl
  | name :: lexeme =>
    by_cases hmarker : name :: lexeme = marker
    · rw [hmarker, readLine_marker, readLine_marker]
      match top with
      | [] =>
        have hout : read.head?.any (fun above => decide (above.line + 1 = line)) = false := by
          rw [Option.any_eq_false_iff_get]
          intro hsome
          have hlt := h _ (List.mem_of_mem_head? (Option.get_mem hsome))
          exact decide_eq_false (Nat.ne_of_lt hlt)
        simp [hout]
      | entry :: top =>
        show (if decide (entry.line + 1 = line) then top ++ read else entry :: top ++ read) =
          (if decide (entry.line + 1 = line) then top else entry :: top) ++ read
        split <;> rfl
    · rw [readLine_of_ne hmarker, readLine_of_ne hmarker, List.cons_append]

/-- **What no marker can reach stays**: above it the lines are read as if it were not there. -/
theorem readLines_append (top : List Entry) {read : List Entry} {line : Nat}
    (h : ∀ entry ∈ read, entry.line + 1 < line) (texts : List (List (List Char))) :
    readLines (top ++ read) line texts = read.reverse ++ readLines top line texts := by
  induction texts generalizing top line with
  | nil => exact List.reverse_append
  | cons words others ih =>
    have hnext : ∀ entry ∈ read, entry.line + 1 < line + 1 := by
      intro entry hmem
      have := h entry hmem
      omega
    show readLines (readLine (top ++ read) line words) (line + 1) others = _
    rw [readLine_append top h, ih _ hnext]
    rfl

/-! ## One line at a time -/

/-- A line without words is passed over. -/
theorem entries_cons_nil (line : Nat) (others : List (List (List Char))) :
    entries line ([] :: others) = entries (line + 1) others := rfl

/-- An entry is out of reach as soon as the line below it turns out to be no marker. -/
theorem readLines_singleton (entry : Entry) {others : List (List (List Char))}
    (h : others.head? ≠ some marker) :
    readLines [entry] (entry.line + 1) others = entry :: entries (entry.line + 1) others := by
  match others with
  | [] => rfl
  | words :: others =>
    have hwords : words ≠ marker := fun heq => h (congrArg some heq)
    have hkeep : readLine [entry] (entry.line + 1) words =
        readLine [] (entry.line + 1) words ++ [entry] := by
      match words with
      | [] => rfl
      | name :: lexeme => rw [readLine_of_ne hwords, readLine_of_ne hwords, List.singleton_append]
    have hout : ∀ other ∈ [entry], other.line + 1 < entry.line + 1 + 1 := by
      intro other hmem
      rw [List.mem_singleton.mp hmem]
      omega
    show readLines (readLine [entry] (entry.line + 1) words) (entry.line + 1 + 1) others = _
    rw [hkeep, readLines_append _ hout]
    rfl

/-- **The line below decides**: a line with words is an entry unless it is a marker line or has one
    right below it. -/
theorem entries_cons (line : Nat) (name : List Char) (lexeme : List (List Char))
    (others : List (List (List Char))) :
    entries line ((name :: lexeme) :: others) =
      if name :: lexeme = marker ∨ others.head? = some marker then entries (line + 1) others
      else ⟨line, name, lexeme⟩ :: entries (line + 1) others := by
  show readLines (readLine [] line (name :: lexeme)) (line + 1) others = _
  by_cases hmarker : name :: lexeme = marker
  · rw [if_pos (Or.inl hmarker), hmarker, readLine_marker]
    rfl
  · rw [readLine_of_ne hmarker]
    by_cases hbelow : others.head? = some marker
    · -- the marker finds the entry on top, and takes it back
      obtain ⟨rest, rfl⟩ := List.head?_eq_some_iff.mp hbelow
      have hback : readLine [⟨line, name, lexeme⟩] (line + 1) marker = [] := by
        rw [readLine_marker]
        simp
      have hnone : readLine [] (line + 1) marker = [] := readLine_marker _ _
      rw [if_pos (Or.inr hbelow)]
      show readLines (readLine _ _ marker) _ rest = readLines (readLine _ _ marker) _ rest
      rw [hback, hnone]
    · rw [if_neg (not_or_intro hmarker hbelow)]
      exact readLines_singleton ⟨line, name, lexeme⟩ hbelow

/-! ## Lines that survive -/

/-- Whether a line holds nothing but the marker's name. -/
def isMarkerLine (text : List Char) : Bool := words text == marker

/-- Whether the line with index `i`, counted from zero, survives: it has a character that is no blank,
    it is no marker line, and neither is the line below it. -/
def survives (texts : List (List Char)) (i : Nat) : Bool :=
  texts[i]?.any (fun text => !text.all isBlank && !isMarkerLine text) &&
    !texts[i + 1]?.any isMarkerLine

/-- The indices of the lines that survive, from the first line to the last. -/
def survivors (texts : List (List Char)) : List Nat :=
  (List.range texts.length).filter (survives texts)

/-- What the line with index `i` holds, as an entry of a stream whose first line has the number
    `line`. -/
def entryAt (line : Nat) (texts : List (List Char)) (i : Nat) : Entry :=
  let found := (texts[i]?.map words).getD []
  ⟨i + line, found.headD [], found.tail⟩

/-- Behind a first line the others survive as they would without it. -/
theorem survivors_cons (text : List Char) (texts : List (List Char)) :
    survivors (text :: texts) =
      (if survives (text :: texts) 0 then [0] else []) ++ (survivors texts).map (· + 1) := by
  have hbehind : (survives (text :: texts)) ∘ (· + 1) = survives texts := rfl
  unfold survivors
  rw [List.length_cons, List.range_succ_eq_map, List.filter_cons, List.filter_map]
  show (if _ then 0 :: (List.filter (survives (text :: texts) ∘ (· + 1)) _).map (· + 1) else _) = _
  rw [hbehind]
  split <;> rfl

theorem entryAt_cons (line : Nat) (text : List Char) (texts : List (List Char)) :
    entryAt line (text :: texts) ∘ (· + 1) = entryAt (line + 1) texts := by
  funext i
  have hline : i + 1 + line = i + (line + 1) := by omega
  show Entry.mk (i + 1 + line) _ _ = Entry.mk (i + (line + 1)) _ _
  rw [hline]
  rfl

/-- **The entries of a stream are its surviving lines.** -/
theorem entries_eq_survivors (line : Nat) (texts : List (List Char)) :
    entries line (texts.map words) = (survivors texts).map (entryAt line texts) := by
  induction texts generalizing line with
  | nil => rfl
  | cons text texts ih =>
    have hbelow : ((texts.map words).head? = some marker) ↔ texts[0]?.any isMarkerLine = true := by
      cases texts with
      | nil => simp
      | cons next texts => simp [isMarkerLine]
    have hfirst : entryAt line (text :: texts) 0 =
        ⟨0 + line, (words text).headD [], (words text).tail⟩ := rfl
    have hsurvives : survives (text :: texts) 0 = true ↔
        words text ≠ [] ∧ ¬(words text = marker ∨ (texts.map words).head? = some marker) := by
      show ((!text.all isBlank && !isMarkerLine text) && !texts[0]?.any isMarkerLine) = true ↔ _
      rw [hbelow, ne_eq, words_eq_nil_iff, isMarkerLine]
      simp [and_assoc]
    rw [survivors_cons, List.map_append, List.map_map, entryAt_cons, ← ih, List.map_cons]
    cases hwords : words text with
    | nil =>
      rw [if_neg fun h => (hsurvives.mp h).1 hwords]
      exact entries_cons_nil line _
    | cons name lexeme =>
      rw [entries_cons, ← hwords]
      by_cases hout : words text = marker ∨ (texts.map words).head? = some marker
      · rw [if_pos hout, if_neg fun h => (hsurvives.mp h).2 hout]
        rfl
      · rw [if_neg hout, if_pos (hsurvives.mpr ⟨by rw [hwords]; exact List.cons_ne_nil _ _, hout⟩)]
        show _ = entryAt line (text :: texts) 0 :: _
        rw [hfirst, hwords, Nat.zero_add]
        rfl

/-! ## What the surviving lines hold -/

/-- The first word of the line with index `i` is the name of a kind other than the marker. -/
def NamesKind (texts : List (List Char)) (i : Nat) : Prop :=
  ∃ (text : List Char) (kind : Kind) (rest : List (List Char)),
    texts[i]? = some text ∧ words text = kind.name.toList :: rest ∧ kind ≠ .error

/-- `Holds texts i token` — the line with index `i` holds the token: the name of its kind, and its lexeme
    as the words behind it.  The token's line is the line's number, counted from one. -/
structure Holds (texts : List (List Char)) (i : Nat) (token : Token) : Prop where
  kind : token.kind ≠ .error
  line : token.line = i + 1
  words : ∃ text rest, texts[i]? = some text ∧ words text = token.kind.name.toList :: rest ∧
    token.lexeme = " ".intercalate (rest.map String.ofList)

/-- A line that survives has a first word. -/
theorem words_of_mem_survivors {texts : List (List Char)} {i : Nat} (h : i ∈ survivors texts) :
    ∃ text name rest, texts[i]? = some text ∧ words text = name :: rest := by
  obtain ⟨hline, -⟩ := Bool.and_eq_true_iff.mp (List.mem_filter.mp h).2
  cases htext : texts[i]? with
  | none =>
    rw [htext] at hline
    cases hline
  | some text =>
    rw [htext] at hline
    obtain ⟨hsolid, -⟩ := Bool.and_eq_true_iff.mp hline
    have hne : words text ≠ [] := by
      rw [ne_eq, words_eq_nil_iff]
      simpa using hsolid
    obtain ⟨name, rest, hwords⟩ := List.exists_cons_of_ne_nil hne
    exact ⟨text, name, rest, rfl, hwords⟩

theorem entryAt_of_words {texts : List (List Char)} {i : Nat} {text name : List Char}
    {rest : List (List Char)} (htext : texts[i]? = some text) (hwords : words text = name :: rest) :
    entryAt 1 texts i = ⟨i + 1, name, rest⟩ := by
  unfold entryAt
  rw [htext, Option.map_some, hwords]
  rfl

/-- A line that names a kind is read as the token it holds. -/
theorem token_entryAt {texts : List (List Char)} {i : Nat} (h : NamesKind texts i) :
    ∃ token, (entryAt 1 texts i).token = .ok token ∧ Holds texts i token := by
  obtain ⟨text, kind, rest, htext, hwords, hkind⟩ := h
  refine ⟨⟨kind, " ".intercalate (rest.map String.ofList), i + 1⟩, ?_,
    hkind, rfl, text, rest, htext, hwords, rfl⟩
  rw [entryAt_of_words htext hwords, Entry.token, String.ofList_toList, Kind.ofName?_name hkind]

/-- A surviving line that names none is an error. -/
theorem token_entryAt_of_not {texts : List (List Char)} {i : Nat} (hmem : i ∈ survivors texts)
    (h : ¬NamesKind texts i) :
    ∃ text name rest, texts[i]? = some text ∧ words text = name :: rest ∧
      (entryAt 1 texts i).token = .error ⟨.unknownTokenKind (String.ofList name), i + 1⟩ := by
  obtain ⟨text, name, rest, htext, hwords⟩ := words_of_mem_survivors hmem
  refine ⟨text, name, rest, htext, hwords, ?_⟩
  have hnone : Kind.ofName? (String.ofList name) = none := by
    rw [Option.eq_none_iff_forall_ne_some]
    intro kind hread
    obtain ⟨hkind, hname⟩ := Kind.ofName?_eq_some_iff.mp hread
    have hfirst : name = kind.name.toList := by rw [hname, String.toList_ofList]
    exact h ⟨text, kind, rest, htext, hfirst ▸ hwords, hkind⟩
  rw [entryAt_of_words htext hwords, Entry.token, hnone]

/-- Where every entry is read, so are all of them together. -/
theorem mapM_of_forall {entry : Nat → Entry} {R : Nat → Token → Prop} {places : List Nat}
    (h : ∀ i ∈ places, ∃ token, (entry i).token = .ok token ∧ R i token) :
    ∃ tokens, (places.map entry).mapM Entry.token = .ok tokens ∧ List.Forall₂ R places tokens := by
  induction places with
  | nil => exact ⟨[], rfl, .nil⟩
  | cons i places ih =>
    obtain ⟨hfirst, hothers⟩ := List.forall_mem_cons.mp h
    obtain ⟨token, htoken, hholds⟩ := hfirst
    obtain ⟨tokens, htokens, hall⟩ := ih hothers
    refine ⟨token :: tokens, ?_, .cons hholds hall⟩
    rw [List.map_cons, List.mapM_cons, htoken, htokens]
    rfl

/-- Behind entries that are read, the first one that is not is the error, whatever follows. -/
theorem mapM_of_error {before after : List Entry} {entry : Entry} {error : ParseError}
    (hbefore : ∀ earlier ∈ before, ∃ token, earlier.token = .ok token)
    (herror : entry.token = .error error) :
    (before ++ entry :: after).mapM Entry.token = .error error := by
  induction before with
  | nil =>
    rw [List.nil_append, List.mapM_cons, herror]
    rfl
  | cons earlier before ih =>
    obtain ⟨⟨token, htoken⟩, hothers⟩ := List.forall_mem_cons.mp hbefore
    rw [List.cons_append, List.mapM_cons, htoken, ih hothers]
    rfl

/-- **A stream is loaded as its surviving lines say.**  If each of them names a kind, there is one token
    for each, in order: its kind, the other words joined by single spaces, and the line's number.
    Otherwise the first one that names no kind is the error, with its first word and its number,
    whatever follows. -/
theorem load_survivors (text : String) :
    ((∀ i ∈ survivors (lines text.toList), NamesKind (lines text.toList) i) →
      ∃ tokens, load text = .ok tokens ∧
        List.Forall₂ (Holds (lines text.toList)) (survivors (lines text.toList)) tokens) ∧
    ∀ before i after, survivors (lines text.toList) = before ++ i :: after →
      (∀ j ∈ before, NamesKind (lines text.toList) j) → ¬NamesKind (lines text.toList) i →
      ∃ line name rest, (lines text.toList)[i]? = some line ∧ words line = name :: rest ∧
        load text = .error ⟨.unknownTokenKind (String.ofList name), i + 1⟩ := by
  have hload : load text =
      ((survivors (lines text.toList)).map (entryAt 1 (lines text.toList))).mapM Entry.token := by
    unfold load
    rw [entries_eq_survivors]
  rw [hload]
  constructor
  · intro hall
    exact mapM_of_forall fun i hmem => token_entryAt (hall i hmem)
  · intro before i after hsurvivors hbefore hnot
    have hmem : i ∈ survivors (lines text.toList) := by
      rw [hsurvivors]
      exact List.mem_append_right _ List.mem_cons_self
    obtain ⟨line, name, rest, hline, hwords, herror⟩ := token_entryAt_of_not hmem hnot
    refine ⟨line, name, rest, hline, hwords, ?_⟩
    rw [hsurvivors, List.map_append, List.map_cons]
    refine mapM_of_error ?_ herror
    intro entry hentry
    obtain ⟨j, hj, rfl⟩ := List.mem_map.mp hentry
    obtain ⟨token, htoken, -⟩ := token_entryAt (hbefore j hj)
    exact ⟨token, htoken⟩

/-- A message with its marker, a marker below an empty line, and two lines that name no kind. -/
def strayMarkers : String := "Bad x\nError\nNumber 1\n\nError\nfoo bar\nbaz"

/-- The message is gone with its marker, so the error is the first of the two other lines. -/
theorem load_survivors_strayMarkers :
    survivors (lines strayMarkers.toList) = [2, 5, 6] ∧
      load strayMarkers = .error ⟨.unknownTokenKind "foo", 6⟩ := by
  have hsurvivors : survivors (lines strayMarkers.toList) = [2] ++ 5 :: [6] := by decide +kernel
  have hnumber : NamesKind (lines strayMarkers.toList) 2 :=
    ⟨"Number 1".toList, .number, ["1".toList], by decide +kernel, by decide +kernel, by decide⟩
  have hfoo : (lines strayMarkers.toList)[5]? = some "foo bar".toList := by decide +kernel
  have hwords : words "foo bar".toList = ["foo".toList, "bar".toList] := by decide +kernel
  have hnot : ¬NamesKind (lines strayMarkers.toList) 5 := by
    rintro ⟨text, kind, rest, htext, hfirst, -⟩
    have hnames : ∀ kind ∈ Kind.all, kind.name.toList ≠ "foo".toList := by decide +kernel
    rw [hfoo] at htext
    cases htext
    rw [hwords] at hfirst
    exact hnames kind kind.mem_all (List.cons.inj hfirst).1.symm
  obtain ⟨line, name, rest, hline, hfirst, hload⟩ := (load_survivors strayMarkers).2 [2] 5 [6]
    hsurvivors (fun j hj => List.mem_singleton.mp hj ▸ hnumber) hnot
  rw [hfoo] at hline
  cases hline
  rw [hwords] at hfirst
  cases hfirst
  exact ⟨hsurvivors, hload⟩

end CalcFrontEnd.TokenStream
