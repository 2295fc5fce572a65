/-
  LINE ENDS — a scan can be taken apart at the ends of lines.

  1. **Cuts** — no cut looks past the first newline behind its first character, whatever it reads there:
     strings and words stop in front of it, a number looks one or two characters ahead but never beyond
     it, and a faulty span may take it as its last character.  So more text behind a newline changes
     nothing but the rest (`cut_before`).

  2. **Trivia** — the same holds of the gaps between lines that are whole (`splitTrivia_append_lines`).
     Only a comment could run on, and the newline ends it.

  3. **Dissections** — a dissection is determined by its text (`Dissects.unique`), it can start on any line
     (`Dissects.later`), and behind whole lines a second one goes on where the first had its end token
     (`Dissects.append_lines`).

  4. **Result** — `scan_append`: the scan of whole lines without its end token, and the scan of what
     follows, with its lines counted on.
-/
import CalcFrontEnd.Proofs.Lexis.Partition

namespace CalcFrontEnd

namespace Lexis

open Text

/-! ## Cuts -/

/-- The cut with more text behind it. -/
def Cut.before (cut : Cut) (more : List Char) : Cut := { cut with rest := cut.rest ++ more }

/-- A character that is to be taken is no newline, if a newline is not. -/
theorem newline_ne {p : Char → Bool} {c : Char} (hp : p '\n' = false) (hc : p c = true) :
    '\n' ≠ c := by
  rintro rfl
  rw [hp] at hc
  cases hc

/-- What is taken from a text with a newline stops there, if the newline is not to be taken. -/
theorem takeWhile_append_of_newline {p : Char → Bool} {text : List Char} (hp : p '\n' = false)
    (h : '\n' ∈ text) (more : List Char) : (text ++ more).takeWhile p = text.takeWhile p := by
  induction text with
  | nil => cases h
  | cons c text ih =>
    rw [List.cons_append, List.takeWhile_cons, List.takeWhile_cons]
    by_cases hc : p c = true
    · rw [if_pos hc, if_pos hc, ih (List.mem_of_ne_of_mem (newline_ne hp hc) h)]
    · rw [if_neg hc, if_neg hc]

/-- Likewise for what is left. -/
theorem dropWhile_append_of_newline {p : Char → Bool} {text : List Char} (hp : p '\n' = false)
    (h : '\n' ∈ text) (more : List Char) :
    (text ++ more).dropWhile p = text.dropWhile p ++ more ∧ '\n' ∈ text.dropWhile p := by
  induction text with
  | nil => cases h
  | cons c text ih =>
    rw [List.cons_append, List.dropWhile_cons, List.dropWhile_cons]
    by_cases hc : p c = true
    · rw [if_pos hc, if_pos hc]
      exact ih (List.mem_of_ne_of_mem (newline_ne hp hc) h)
    · rw [if_neg hc, if_neg hc]
      exact ⟨rfl, h⟩

theorem cutString_before {text : List Char} (h : '\n' ∈ text) (more : List Char) :
    cutString (text ++ more) = (cutString text).before more := by
  have hp : isStringPart '\n' = false := by decide
  obtain ⟨hdrop, hmem⟩ := dropWhile_append_of_newline hp h more
  unfold cutString
  rw [takeWhile_append_of_newline hp h, hdrop]
  cases hrest : text.dropWhile isStringPart with
  | nil =>
    rw [hrest] at hmem
    cases hmem
  | cons c rest => by_cases hc : c = '"' <;> simp [hc, Cut.before]

theorem cutWord_before {text : List Char} (h : '\n' ∈ text) (c : Char) (more : List Char) :
    cutWord c (text ++ more) = (cutWord c text).before more := by
  have hp : isWordPart '\n' = false := by decide +kernel
  unfold cutWord
  rw [takeWhile_append_of_newline hp h, (dropWhile_append_of_newline hp h more).1]
  rfl

/-- A sign is looked for in the first character only, and it is no newline. -/
theorem signOf_append {text : List Char} (h : '\n' ∈ text) (more : List Char) :
    signOf (text ++ more) = signOf text ∧
      (text ++ more).drop (signOf text).length = text.drop (signOf text).length ++ more ∧
      '\n' ∈ text.drop (signOf text).length := by
  cases text with
  | nil => cases h
  | cons c text =>
    by_cases hc : c = '+' ∨ c = '-'
    · have hne : '\n' ≠ c := by
        rintro rfl
        exact absurd hc (by decide)
      simp only [List.cons_append, signOf, if_pos hc]
      exact ⟨trivial, rfl, List.mem_of_ne_of_mem hne h⟩
    · simp only [List.cons_append, signOf, if_neg hc]
      exact ⟨trivial, rfl, h⟩

theorem cutExponent_before {text : List Char} (h : '\n' ∈ text) (mantissa more : List Char) :
    cutExponent mantissa (text ++ more) = (cutExponent mantissa text).before more := by
  cases text with
  | nil => cases h
  | cons mark afterMark =>
    by_cases hmark : mark = 'e' ∨ mark = 'E'
    · have hne : '\n' ≠ mark := by
        rintro rfl
        exact absurd hmark (by decide)
      obtain ⟨hsign, hdrop, hmem⟩ := signOf_append (List.mem_of_ne_of_mem hne h) more
      simp only [cutExponent, List.cons_append, if_pos hmark, hsign, hdrop]
      cases hrest : afterMark.drop (signOf afterMark).length with
      | nil =>
        rw [hrest] at hmem
        cases hmem
      | cons c rest =>
        rw [hrest] at hmem
        by_cases hdigit : c.isDigit = true
        · have hp : Char.isDigit '\n' = false := by decide
          have hnewline : '\n' ∈ rest := List.mem_of_ne_of_mem (newline_ne hp hdigit) hmem
          simp only [List.cons_append, if_pos hdigit, takeWhile_append_of_newline hp hnewline,
            (dropWhile_append_of_newline hp hnewline more).1]
          rfl
        · by_cases halphabetic : isAlphabetic c = true <;>
            simp [hdigit, halphabetic, Cut.before]
    · simp only [cutExponent, List.cons_append, if_neg hmark]
      rfl

/-- Without a point there is no fraction. -/
theorem cutFraction_of_ne {c : Char} (h : c ≠ '.') (whole text : List Char) :
    cutFraction whole (c :: text) = cutExponent whole (c :: text) := by
  unfold cutFraction
  split
  · rename_i heq
    exact absurd (List.head_eq_of_cons_eq heq) h
  · rfl

theorem cutFraction_before {text : List Char} (h : '\n' ∈ text) (whole more : List Char) :
    cutFraction whole (text ++ more) = (cutFraction whole text).before more := by
  cases text with
  | nil => cases h
  | cons c afterPoint =>
    by_cases hpoint : c = '.'
    · subst hpoint
      have hmem : '\n' ∈ afterPoint := List.mem_of_ne_of_mem (by decide) h
      cases afterPoint with
      | nil => cases hmem
      | cons c rest =>
        by_cases hdigit : c.isDigit = true
        · have hp : Char.isDigit '\n' = false := by decide
          have hnewline : '\n' ∈ rest := List.mem_of_ne_of_mem (newline_ne hp hdigit) hmem
          obtain ⟨hdrop, hbehind⟩ := dropWhile_append_of_newline hp hnewline more
          simp only [cutFraction, List.cons_append, if_pos hdigit, hdrop,
            takeWhile_append_of_newline hp hnewline]
          exact cutExponent_before hbehind _ more
        · simp only [cutFraction, List.cons_append, if_neg hdigit]
          rfl
    · rw [List.cons_append, cutFraction_of_ne hpoint, cutFraction_of_ne hpoint]
      exact cutExponent_before h whole more

/-- The operators are found in the first two characters, since none of them is longer. -/
theorem operatorAt?_append_of_le {text : List Char} (h : 2 ≤ text.length) (more : List Char) :
    Kind.operatorAt? (text ++ more) = Kind.operatorAt? text := by
  match text with
  | c :: d :: text => rfl

theorem cutOperator_before {text : List Char} (h : 2 ≤ text.length) (more : List Char) :
    cutOperator (text ++ more) = (cutOperator text).before more := by
  unfold cutOperator
  rw [operatorAt?_append_of_le h]
  cases hoperator : Kind.operatorAt? text with
  | none =>
    have htake : (text ++ more).take illegalWidth = text.take illegalWidth :=
      List.take_append_of_le_length h
    have hdrop : (text ++ more).drop illegalWidth = text.drop illegalWidth ++ more :=
      List.drop_append_of_le_length h
    simp only [htake, hdrop]
    rfl
  | some operator =>
    obtain ⟨kind, spelling⟩ := operator
    have hlength : spelling.length ≤ text.length := by
      have happ := congrArg List.length (operatorAt?_append hoperator)
      simp at happ
      omega
    simp only [List.drop_append_of_le_length hlength]
    rfl

/-- **No cut looks past a newline**: more text behind it changes nothing but the rest. -/
theorem cut_before {text : List Char} (h : '\n' ∈ text) (c : Char) (more : List Char) :
    cut c (text ++ more) = (cut c text).before more := by
  unfold cut
  by_cases hquote : c = '"'
  · simp only [if_pos hquote]
    exact cutString_before h more
  · by_cases hword : isWordStart c = true
    · simp only [if_neg hquote, if_pos hword]
      exact cutWord_before h c more
    · by_cases hdigit : c.isDigit = true
      · simp only [if_neg hquote, if_neg hword, if_pos hdigit]
        have hp : Char.isDigit '\n' = false := by decide
        obtain ⟨hdrop, hmem⟩ := dropWhile_append_of_newline hp h more
        unfold cutNumber
        rw [takeWhile_append_of_newline hp h, hdrop]
        exact cutFraction_before hmem _ more
      · by_cases hpoint : c = '.'
        · simp only [if_neg hquote, if_neg hword, if_neg hdigit, if_pos hpoint]
          rfl
        · simp only [if_neg hquote, if_neg hword, if_neg hdigit, if_neg hpoint]
          have hlength : 2 ≤ (c :: text).length := Nat.succ_le_succ (List.length_pos_of_mem h)
          exact cutOperator_before hlength more

/-! ## Whole lines -/

/-- `WholeLines text` — the text is empty, or its last line has its newline. -/
def WholeLines (text : List Char) : Prop := text = [] ∨ text.getLast? = some '\n'

/-- Whole lines are whole from any place on. -/
theorem WholeLines.of_append {front back : List Char} (h : WholeLines (front ++ back)) :
    WholeLines back := by
  cases back with
  | nil => exact Or.inl rfl
  | cons c back =>
    rcases h with hnil | hlast
    · exact absurd hnil (by simp)
    · rw [List.getLast?_append, List.getLast?_cons, Option.some_or] at hlast
      exact Or.inr (List.getLast?_cons.trans hlast)

theorem WholeLines.tail {c : Char} {text : List Char} (h : WholeLines (c :: text)) :
    WholeLines text := by
  have happend : WholeLines ([c] ++ text) := h
  exact happend.of_append

/-- A character that is no newline is not the last of whole lines. -/
theorem WholeLines.newline_mem {c : Char} {text : List Char} (h : WholeLines (c :: text))
    (hc : c ≠ '\n') : '\n' ∈ text := by
  rcases h with hnil | hlast
  · cases hnil
  · rcases List.mem_cons.mp (List.mem_of_getLast? hlast) with heq | hmem
    · exact absurd heq.symm hc
    · exact hmem

/-- What is split off a text with more behind it: where the trivia reach to the end of the text they go
    on into what is behind it. -/
def runOn (parts : List Char × List Char) (more : List Char) : List Char × List Char :=
  match parts.2 with
  | [] => (parts.1 ++ (splitTrivia false more).1, (splitTrivia false more).2)
  | c :: behind => (parts.1, c :: (behind ++ more))

theorem runOn_cons (c : Char) (parts : List Char × List Char) (more : List Char) :
    runOn (c :: parts.1, parts.2) more =
      (c :: (runOn parts more).1, (runOn parts more).2) := by
  obtain ⟨gap, rest⟩ := parts
  cases rest <;> rfl

/-- Newlines are trivia, so what stands behind a gap is none. -/
theorem ne_newline_of_splitTrivia {text gap behind : List Char} {c : Char}
    (h : splitTrivia false text = (gap, c :: behind)) : c ≠ '\n' := by
  rintro rfl
  exact absurd (isBlank_of_splitTrivia h) (by decide)

/-- **Trivia end with their line**, inside a comment as well. -/
theorem splitTrivia_append_lines {text : List Char} (h : WholeLines text) (inComment : Bool)
    (hcomment : inComment = true → text ≠ []) (more : List Char) :
    splitTrivia inComment (text ++ more) = runOn (splitTrivia inComment text) more := by
  induction text generalizing inComment with
  | nil =>
    cases inComment with
    | true => exact absurd rfl (hcomment rfl)
    | false => rfl
  | cons c text ih =>
    have htail : WholeLines text := h.tail
    have hne : c ≠ '\n' → text ≠ [] := fun hc => List.ne_nil_of_mem (h.newline_mem hc)
    rw [List.cons_append]
    unfold splitTrivia
    cases inComment with
    | true =>
      simp only [if_true]
      rw [ih htail _ (fun hc => hne (by simpa using hc)), runOn_cons]
    | false =>
      by_cases hblank : isBlank c = true
      · simp only [hblank, if_true, Bool.false_eq_true, if_false]
        rw [ih htail false (fun hc => by cases hc), runOn_cons]
      · have hc : c ≠ '\n' := by
          rintro rfl
          exact hblank (by decide)
        have hhead : (text ++ more).head? = text.head? := by
          cases text with
          | nil => exact absurd rfl (hne hc)
          | cons d text => rfl
        by_cases hslash : c = '/' ∧ text.head? = some '/'
        · simp only [hblank, hhead, if_pos hslash, Bool.false_eq_true, if_false]
          rw [ih htail true (fun _ => hne hc), runOn_cons]
        · simp only [hblank, hhead, if_neg hslash, Bool.false_eq_true, if_false]
          rfl

end Lexis

/-! ## Dissections -/

/-- The item, `n` lines further down. -/
def Item.later (n : Nat) : Item → Item
  | .token t => .token { t with line := t.line + n }
  | .error e => .error { e with line := e.line + n }

namespace Lexis

open Text

/-- The piece, `n` lines further down. -/
def Piece.later (n : Nat) (piece : Piece) : Piece := { piece with item := piece.item.later n }

theorem Cut.later_item (cut : Cut) (line n : Nat) : (cut.item line).later n = cut.item (line + n) := by
  unfold Cut.item
  cases cut.reading <;> rfl

namespace Dissects

variable {line : Nat} {text : List Char} {pieces : List Piece}

/-- **A text is dissected in one way only.** -/
theorem unique (h : Dissects line text pieces) {others : List Piece}
    (h' : Dissects line text others) : pieces = others := by
  induction h generalizing others with
  | finish hsplit =>
    cases h' with
    | finish hsplit' =>
      rw [hsplit] at hsplit'
      cases hsplit'
      rfl
    | read hsplit' _ =>
      rw [hsplit] at hsplit'
      cases hsplit'
  | read hsplit _ ih =>
    cases h' with
    | finish hsplit' =>
      rw [hsplit] at hsplit'
      cases hsplit'
    | read hsplit' h' =>
      rw [hsplit] at hsplit'
      cases hsplit'
      rw [ih h']

/-- A text that starts further down is dissected alike. -/
theorem later (h : Dissects line text pieces) (n : Nat) :
    Dissects (line + n) text (pieces.map (Piece.later n)) := by
  induction h with
  | @finish line text gap hsplit =>
    have hfinish : Dissects (line + n) text _ := .finish hsplit
    rw [Nat.add_right_comm] at hfinish
    exact hfinish
  | @read line text gap behind c pieces hsplit _ ih =>
    rw [Nat.add_right_comm] at ih
    have hread := Dissects.read hsplit ih
    rw [Nat.add_right_comm, ← Cut.later_item] at hread
    exact hread

/-- A dissection goes on with what comes behind trivia. -/
theorem behind_gap {gap more : List Char} (h : Dissects (line + gap.count '\n') more pieces)
    (hsplit : splitTrivia false text = runOn (gap, []) more) :
    ∃ joined, Dissects line text joined ∧ joined.map Piece.item = pieces.map Piece.item := by
  have hcount : ∀ gap' : List Char,
      line + (gap ++ gap').count '\n' = line + gap.count '\n' + gap'.count '\n' := by
    intro gap'
    rw [List.count_append, Nat.add_assoc]
  cases h with
  | @finish _ _ gap' hsplit' =>
    simp only [runOn, hsplit'] at hsplit
    have hfinish : Dissects line text _ := .finish hsplit
    rw [hcount] at hfinish
    exact ⟨_, hfinish, rfl⟩
  | @read _ _ gap' behind c pieces hsplit' h =>
    simp only [runOn, hsplit'] at hsplit
    rw [← hcount] at h
    have hread : Dissects line text _ := .read hsplit h
    rw [hcount] at hread
    exact ⟨_, hread, rfl⟩

/-- **Behind whole lines a second dissection goes on**, from the line of the first one's end token. -/
theorem append_lines (h : Dissects line text pieces) (htext : WholeLines text) :
    ∃ init last, pieces.map Piece.item = init ++ [.token (.endOfFile last)] ∧ line ≤ last ∧
      ∀ {more others}, Dissects last more others → ∃ joined,
        Dissects line (text ++ more) joined ∧
        joined.map Piece.item = init ++ others.map Piece.item := by
  induction h with
  | @finish line text gap hsplit =>
    refine ⟨[], line + gap.count '\n', rfl, Nat.le_add_right _ _, ?_⟩
    intro more others hothers
    refine hothers.behind_gap ?_
    rw [splitTrivia_append_lines htext false (fun h => by cases h), hsplit]
  | @read line text gap behind c pieces hsplit _ ih =>
    -- what stands behind the gap, and behind the cut, are whole lines again
    have hbehind : WholeLines (c :: behind) := by
      rw [← append_of_splitTrivia hsplit] at htext
      exact htext.of_append
    have hrest : WholeLines (cut c behind).rest := by
      rw [← cut_append c behind] at hbehind
      exact hbehind.of_append
    obtain ⟨init, last, hitems, hle, hjoin⟩ := ih hrest
    refine ⟨_ :: init, last, by rw [List.map_cons, hitems, List.cons_append], by omega, ?_⟩
    intro more others hothers
    obtain ⟨joined, hjoined, hmap⟩ := hjoin hothers
    have hnewline : '\n' ∈ behind := hbehind.newline_mem (ne_newline_of_splitTrivia hsplit)
    have hcut := cut_before hnewline c more
    have hsplit' : splitTrivia false (text ++ more) = (gap, c :: (behind ++ more)) := by
      rw [splitTrivia_append_lines htext false (fun h => by cases h), hsplit]
      rfl
    have hbehindCut : (cut c (behind ++ more)).rest = (cut c behind).rest ++ more := by
      rw [hcut]
      rfl
    rw [← hbehindCut] at hjoined
    have hread : Dissects line (text ++ more) _ := .read hsplit' hjoined
    refine ⟨_, hread, ?_⟩
    rw [List.map_cons, hmap, hcut, List.cons_append]
    rfl

end Dissects

end Lexis

/-! ## Scans -/

namespace Scanner

open Lexis

/-- A dissection of a source text gives its scan. -/
theorem scan_of_dissects {source : String} {pieces : List Piece}
    (h : Dissects 1 source.toList pieces) : scan source = pieces.map Piece.item := by
  obtain ⟨others, hothers, hitems⟩ := scan_dissects source
  rw [← hitems, h.unique hothers]

/-- **A scan can be taken apart at a line end.**  If the front part is empty or ends with a newline,
    the scan of the whole is the scan of the front without its end token, and then the scan of the
    back, where lines are counted on from the line of that end token. -/
theorem scan_append {front back : String} (h : WholeLines front.toList) :
    ∃ items last, scan front = items ++ [.token (.endOfFile last)] ∧ 1 ≤ last ∧
      scan (front ++ back) = items ++ (scan back).map (Item.later (last - 1)) := by
  obtain ⟨pieces, hpieces, hscan⟩ := scan_dissects front
  obtain ⟨others, hothers, hback⟩ := scan_dissects back
  obtain ⟨items, last, hitems, hlast, hjoin⟩ := hpieces.append_lines h
  refine ⟨items, last, by rw [← hscan, hitems], hlast, ?_⟩
  have hlater := hothers.later (last - 1)
  rw [show 1 + (last - 1) = last by omega] at hlater
  obtain ⟨joined, hjoined, hmap⟩ := hjoin hlater
  rw [← String.toList_append] at hjoined
  rw [scan_of_dissects hjoined, hmap, ← hback, List.map_map, List.map_map]
  rfl

/-- A faulty number takes the first newline with it, so the count goes on from the second line, though
    the name stands on the third. -/
theorem scan_append_faultyNumber :
    WholeLines "1.\n\n".toList ∧
      scan ("1.\n\n" ++ "x") =
        [.error ⟨.invalidNumber, "1.", 1⟩, .token ⟨.identifier, "x", 2⟩, .token (.endOfFile 2)] := by
  have hlines : WholeLines "1.\n\n".toList := Or.inr (by decide)
  have hfront : scan "1.\n\n" = [.error ⟨.invalidNumber, "1.", 1⟩] ++ [.token (.endOfFile 2)] := by
    decide +kernel
  have hback : scan "x" = [.token ⟨.identifier, "x", 1⟩, .token (.endOfFile 1)] := by decide +kernel
  obtain ⟨items, last, hscan, -, happend⟩ := scan_append hlines
  rw [hfront] at hscan
  obtain ⟨rfl, hlast⟩ := List.append_inj' hscan rfl
  cases hlast
  refine ⟨hlines, happend.trans ?_⟩
  rw [hback]
  rfl

end Scanner

end CalcFrontEnd
