/-
  LINE NUMBERS — which line an item of a scan is reported on.

  1. **Rule** — the scanner counts the newlines of the gaps.  A token takes no newline, so what it misses
     are the newlines that faulty spans have taken.

  2. **Spans** — a faulty span has at most one newline, as its last character (`newline_not_mem_dropLast_cut`):
     a number takes one character of any sort behind its point, an illegal span one behind its first, and
     everything else that a span takes is no newline.

  3. **Crux** — `Dissects.line_law`, by induction over the dissection: line and skipped newlines together
     make up the newlines in front of the item.

  4. **Result** — `scan_line_law`, with what follows from it: lines do not decrease, they are those of the
     source as long as no newline was skipped, and are behind it by one for each error at most.
-/
import CalcFrontEnd.Proofs.Lexis.LineEnd

namespace CalcFrontEnd

namespace Lexis

open Text

/-! ## Newlines in a span -/

/-- What has no newline has none in front of its last character. -/
theorem newline_not_mem_dropLast {span : List Char} (h : '\n' ∉ span) : '\n' ∉ span.dropLast :=
  fun hmem => h (List.dropLast_subset span hmem)

/-- A newline that can only be the last character is one at most. -/
theorem count_newline_le_one {span : List Char} (h : '\n' ∉ span.dropLast) :
    span.count '\n' ≤ 1 := by
  rcases List.eq_nil_or_concat span with rfl | ⟨init, last, rfl⟩
  · exact Nat.zero_le 1
  · rw [List.concat_eq_append] at h ⊢
    rw [List.dropLast_concat] at h
    have hlast : [last].count '\n' ≤ 1 := List.count_le_length
    rw [List.count_append, List.count_eq_zero.mpr h]
    omega

theorem newline_not_mem_cutString (text : List Char) : '\n' ∉ (cutString text).span := by
  have hbody : '\n' ∉ text.takeWhile isStringPart :=
    fun hmem => absurd (forall_mem_takeWhile _ hmem) (by decide)
  unfold cutString
  split
  · simp [hbody]
  · split
    · rename_i hquote
      simp [hbody, hquote]
    · simp [hbody]

/-- Digits are no newlines. -/
theorem newline_not_mem_digits {c : Char} (hc : c.isDigit = true) (text : List Char) :
    '\n' ∉ c :: text.takeWhile Char.isDigit :=
  (isDigits_cons hc text).newline_not_mem

/-- Behind a mantissa no newline is taken. -/
theorem newline_not_mem_cutExponent {mantissa : List Char} (h : '\n' ∉ mantissa)
    (text : List Char) : '\n' ∉ (cutExponent mantissa text).span := by
  unfold cutExponent
  split
  · exact h
  · rename_i mark afterMark
    split
    · rename_i hmark
      have hmark : '\n' ≠ mark := by rcases hmark with rfl | rfl <;> decide
      have hsign : '\n' ∉ signOf afterMark := by
        rcases signOf_cases afterMark with hsign | hsign | hsign <;> rw [hsign] <;> decide
      have hfront : '\n' ∉ mantissa ++ mark :: signOf afterMark := by simp [h, hmark, hsign]
      simp only
      split
      · exact hfront
      · rename_i c rest heq
        split
        · rename_i hdigit
          intro hmem
          rcases List.mem_append.mp hmem with hmem | hmem
          · exact hfront hmem
          · exact newline_not_mem_digits hdigit rest hmem
        · split
          · rename_i halphabetic
            have hp : isAlphabetic '\n' = false := by decide +kernel
            intro hmem
            rcases List.mem_append.mp hmem with hmem | hmem
            · exact hfront hmem
            · exact newline_ne hp halphabetic (List.mem_singleton.mp hmem)
          · exact hfront
    · exact h

/-- Behind a point any one character may be taken. -/
theorem newline_not_mem_cutFraction {whole : List Char} (h : '\n' ∉ whole) (text : List Char) :
    '\n' ∉ (cutFraction whole text).span.dropLast := by
  unfold cutFraction
  split
  · rename_i afterPoint
    split
    · simp [h]
    · rename_i c rest
      split
      · rename_i hdigit
        have hdigits := newline_not_mem_digits hdigit rest
        refine newline_not_mem_dropLast (newline_not_mem_cutExponent ?_ _)
        intro hmem
        rcases List.mem_append.mp hmem with hmem | hmem
        · exact h hmem
        · rcases List.mem_cons.mp hmem with heq | hmem
          · exact absurd heq (by decide)
          · exact hdigits hmem
      · simp [h]
  · exact newline_not_mem_dropLast (newline_not_mem_cutExponent h text)

/-- Where no operator starts, any character may be taken behind the first. -/
theorem newline_not_mem_cutOperator {c : Char} (hc : c ≠ '\n') (text : List Char) :
    '\n' ∉ (cutOperator (c :: text)).span.dropLast := by
  unfold cutOperator
  split
  · rename_i kind spelling heq
    exact newline_not_mem_dropLast
      (isLexeme_of_spelling (operatorAt?_spelling heq)).newline_not_mem
  · cases text with
    | nil => exact List.not_mem_nil
    | cons d text =>
      show '\n' ∉ [c]
      exact fun hmem => hc (List.mem_singleton.mp hmem).symm

/-- **A span holds a newline as its last character only.** -/
theorem newline_not_mem_dropLast_cut {c : Char} (hc : c ≠ '\n') (text : List Char) :
    '\n' ∉ (cut c text).span.dropLast := by
  unfold cut
  split
  · exact newline_not_mem_dropLast (newline_not_mem_cutString text)
  · split
    · rename_i hword
      exact newline_not_mem_dropLast (cutWord_token hword text).newline_not_mem
    · split
      · rename_i hdigit
        exact newline_not_mem_cutFraction (newline_not_mem_digits hdigit text) _
      · split
        · exact List.not_mem_nil
        · exact newline_not_mem_cutOperator hc text

/-! ## The lines of a dissection -/

/-- The text that was given up with an error; a token gives up none. -/
def Piece.skipped (piece : Piece) : List Char :=
  match piece.item with
  | .token _ => []
  | .error _ => piece.span

/-- The text in front of the first character of a piece's item. -/
def Piece.textBefore (piece : Piece) (before : List Piece) : List Char :=
  before.flatMap Piece.text ++ piece.gap

theorem Cut.line_item (cut : Cut) (line : Nat) : (cut.item line).line = line := by
  unfold Cut.item
  cases cut.reading <;> rfl

/-- Newlines are skipped wherever a span holds one, since the span of a token does not. -/
theorem count_skipped_cut (gap behind : List Char) (c : Char) (line : Nat) :
    (Piece.skipped ⟨gap, (cut c behind).span, (cut c behind).item line⟩).count '\n' =
      (cut c behind).span.count '\n' := by
  unfold Piece.skipped Cut.item
  cases hreading : (cut c behind).reading with
  | token kind => exact (List.count_eq_zero.mpr (isLexeme_cut hreading).newline_not_mem).symm
  | fault fault => rfl

namespace Dissects

variable {line : Nat} {text : List Char} {pieces : List Piece}

/-- **Lines and skipped newlines make up the newlines of the source.** -/
theorem line_law (h : Dissects line text pieces) {before after : List Piece} {piece : Piece}
    (hpieces : pieces = before ++ piece :: after) :
    piece.item.line + (before.flatMap Piece.skipped).count '\n' =
      line + (piece.textBefore before).count '\n' := by
  induction h generalizing before with
  | @finish line text gap hsplit =>
    cases before with
    | nil =>
      cases hpieces
      rfl
    | cons first before => simp at hpieces
  | @read line text gap behind c pieces hsplit h ih =>
    cases before with
    | nil =>
      cases hpieces
      show ((cut c behind).item _).line + 0 = _
      rw [Cut.line_item]
      rfl
    | cons first before =>
      cases hpieces
      have hlaw := ih rfl
      have hskipped := count_skipped_cut gap behind c (line + gap.count '\n')
      simp only [Piece.textBefore, Piece.text, List.flatMap_cons, List.count_append] at hlaw hskipped ⊢
      omega

/-- Nothing is reported on a line above the start. -/
theorem le_line (h : Dissects line text pieces) : ∀ piece ∈ pieces, line ≤ piece.item.line := by
  induction h with
  | finish hsplit =>
    intro piece hmem
    rw [List.mem_singleton.mp hmem]
    exact Nat.le_add_right _ _
  | @read line text gap behind c pieces hsplit _ ih =>
    intro piece hmem
    rcases List.mem_cons.mp hmem with rfl | hmem
    · show line ≤ ((cut c behind).item _).line
      rw [Cut.line_item]
      exact Nat.le_add_right _ _
    · exact Nat.le_trans (Nat.le_add_right _ _) (ih piece hmem)

/-- **Lines do not decrease.** -/
theorem lines_pairwise (h : Dissects line text pieces) :
    (pieces.map fun piece => piece.item.line).Pairwise (· ≤ ·) := by
  induction h with
  | finish hsplit => exact List.pairwise_singleton _ _
  | @read line text gap behind c pieces hsplit h ih =>
    rw [List.map_cons, List.pairwise_cons]
    refine ⟨?_, ih⟩
    intro below hmem
    obtain ⟨piece, hpiece, rfl⟩ := List.mem_map.mp hmem
    show ((cut c behind).item _).line ≤ _
    rw [Cut.line_item]
    exact h.le_line piece hpiece

/-- No span has a newline in front of its last character. -/
theorem newline_not_mem_dropLast (h : Dissects line text pieces) :
    ∀ piece ∈ pieces, '\n' ∉ piece.span.dropLast := by
  induction h with
  | finish hsplit =>
    intro piece hmem
    rw [List.mem_singleton.mp hmem]
    exact List.not_mem_nil
  | @read line text gap behind c pieces hsplit _ ih =>
    intro piece hmem
    rcases List.mem_cons.mp hmem with rfl | hmem
    · exact newline_not_mem_dropLast_cut (ne_newline_of_splitTrivia hsplit) behind
    · exact ih piece hmem

end Dissects

/-- Each error skips one newline at most. -/
theorem count_skipped_le {pieces : List Piece}
    (h : ∀ piece ∈ pieces, '\n' ∉ piece.span.dropLast) :
    (pieces.flatMap Piece.skipped).count '\n' ≤
      (pieces.filterMap fun piece => piece.item.error?).length := by
  induction pieces with
  | nil => exact Nat.le_refl 0
  | cons piece pieces ih =>
    obtain ⟨hpiece, hpieces⟩ := List.forall_mem_cons.mp h
    have hrest := ih hpieces
    obtain ⟨gap, span, item⟩ := piece
    have hone : span.count '\n' ≤ 1 := count_newline_le_one hpiece
    cases item with
    | token token => exact hrest
    | error error =>
      show (span ++ pieces.flatMap Piece.skipped).count '\n' ≤
        (pieces.filterMap fun piece => piece.item.error?).length + 1
      rw [List.count_append]
      omega

end Lexis

namespace Scanner

open Lexis

/-- No token of a scan is written with a newline. -/
theorem newline_not_mem_of_mem_scan {source : String} {token : Token}
    (h : .token token ∈ scan source) : '\n' ∉ token.lexeme.toList := by
  obtain ⟨front, last, hscan, hlexeme⟩ := scan_ends source
  rw [hscan] at h
  rcases List.mem_append.mp h with hmem | hmem
  · exact (hlexeme token hmem).newline_not_mem
  · cases List.mem_singleton.mp hmem
    exact List.not_mem_nil

/-- **The exact law of line numbers.**  In the one dissection of a source text, the line of each item is
    one more than the number of newlines in front of its first character, less those that were skipped
    with the errors before it.  Tokens hold no newline, and a span holds one at most, as its last
    character.  Hence lines never decrease along the scan, they are those of the source as long
    as no newline was skipped, and they are behind it by one for each error before at most. -/
theorem scan_line_law (source : String) :
    ∃ pieces, Dissects 1 source.toList pieces ∧ pieces.map Piece.item = scan source ∧
      pieces.flatMap Piece.text = source.toList ∧
      (∀ before piece after, pieces = before ++ piece :: after →
        piece.item.line + (before.flatMap Piece.skipped).count '\n' =
            1 + (piece.textBefore before).count '\n' ∧
          ('\n' ∉ before.flatMap Piece.skipped →
            piece.item.line = 1 + (piece.textBefore before).count '\n') ∧
          1 + (piece.textBefore before).count '\n' ≤
            piece.item.line + (before.filterMap fun piece => piece.item.error?).length) ∧
      (∀ token, .token token ∈ scan source → '\n' ∉ token.lexeme.toList) ∧
      (∀ piece ∈ pieces, piece.span.count '\n' ≤ 1 ∧ '\n' ∉ piece.span.dropLast) ∧
      ((scan source).map Item.line).Pairwise (· ≤ ·) := by
  obtain ⟨pieces, hpieces, hitems⟩ := scan_dissects source
  have hspan := hpieces.newline_not_mem_dropLast
  refine ⟨pieces, hpieces, hitems, hpieces.flatMap_text, ?_, ?_, ?_, ?_⟩
  · intro before piece after hsplit
    have hlaw := hpieces.line_law hsplit
    have hskipped : (before.flatMap Piece.skipped).count '\n' ≤
        (before.filterMap fun piece => piece.item.error?).length := by
      refine count_skipped_le ?_
      intro other hmem
      exact hspan other (hsplit ▸ List.mem_append_left _ hmem)
    refine ⟨hlaw, ?_, by omega⟩
    intro hnone
    rw [List.count_eq_zero.mpr hnone] at hlaw
    exact hlaw
  · intro token hmem
    exact newline_not_mem_of_mem_scan hmem
  · intro piece hmem
    exact ⟨count_newline_le_one (hspan piece hmem), hspan piece hmem⟩
  · have hlines := hpieces.lines_pairwise
    rw [← hitems, List.map_map]
    exact hlines

end Scanner

end CalcFrontEnd
