/-
  THE CURSOR — where a scanner stands in its source text, whatever has been done with it.

  1. **Data** — a `Move` is one of the things that a caller may do with a scanner.  The cursor is the byte
     offset of a `ByteScanner`, and a move of that may fail: every look at the text is a slice.

  2. **Specification** — `s.Advances passed t`: from `s` to `t` a stretch of text has been passed, and the
     line number has gone up, by no more than the newlines in it.  Raw skips pass newlines that are
     never counted, so there is no equation here.

  3. **Step and run, on characters** — an item takes a gap and a span (`next_takes`), and so every move
     advances (`advances_move`) and every sequence of moves does (`advances_after`).  A dissection can
     start on any line, so the items that `collect` gives are those of the scan of what is left,
     further down (`collect_eq_scan`).

  4. **Step and run, on bytes** — a move of the scanner on bytes succeeds and keeps track of the scanner on
     characters (`tracks_move`), and so does a sequence of moves (`tracks_after`).  What that scanner
     has passed is then what stands in front of the cursor (`Tracks.stands_passed`).

  5. **Result** — `after_invariant`.
-/
import CalcFrontEnd.Proofs.Lexis.LineEnd
import CalcFrontEnd.Proofs.Lexis.Refinement

namespace CalcFrontEnd

/-- What can be done with a scanner. -/
inductive Move where
  | ask (call : Call)
  | collect
  | remainder
  | skip (n : Nat)
deriving DecidableEq, Repr

namespace Scanner

open Lexis Text

/-- The scanner behind a move. -/
def move (s : Scanner) : Move → Scanner
  | .ask call => (s.answer call).2
  | .collect => s.collect.2
  | .remainder => s
  | .skip n => s.skip n

/-- The scanner behind moves in order. -/
def after (s : Scanner) (moves : List Move) : Scanner := moves.foldl move s

/-! ## One item -/

/-- **An item takes a gap and a span**, and the newlines of the gap are counted.  The end token takes all
    that is left, and any other item takes something. -/
theorem next_takes (s : Scanner) :
    ∃ gap span, s.rest = gap ++ (span ++ s.next.2.rest) ∧
      s.next.2.line = s.line + gap.count '\n' ∧
      (s.next.1 = .token (.endOfFile s.next.2.line) ∧ s.next.2.rest = [] ∨
        s.next.1.isEnd = false ∧ span ≠ []) := by
  cases hsplit : splitTrivia false s.rest with
  | mk gap rest =>
    have happ := append_of_splitTrivia hsplit
    cases rest with
    | nil =>
      rw [next_of_nil hsplit]
      exact ⟨gap, [], happ.symm, rfl, Or.inl ⟨rfl, rfl⟩⟩
    | cons c behind =>
      rw [next_of_cons hsplit]
      refine ⟨gap, (cut c behind).span, ?_, rfl,
        Or.inr ⟨isEnd_item_cut c behind _, cut_span_ne_nil c behind⟩⟩
      rw [cut_append]
      exact happ.symm

/-- **An item shortens what is left**, unless it is the end token and nothing is left behind it. -/
theorem next_shortens (s : Scanner) :
    s.next.1 = .token (.endOfFile s.next.2.line) ∧ s.next.2.remainder = "" ∨
      s.next.1.isEnd = false ∧ s.next.2.remainder.length < s.remainder.length := by
  obtain ⟨gap, span, hrest, -, ⟨hitem, hnone⟩ | ⟨hitem, hspan⟩⟩ := next_takes s
  · exact Or.inl ⟨hitem, by rw [remainder, hnone]⟩
  · refine Or.inr ⟨hitem, ?_⟩
    have hlength := congrArg List.length hrest
    have hpositive := List.length_pos_iff.mpr hspan
    rw [List.length_append, List.length_append] at hlength
    rw [remainder, remainder, String.length_ofList, String.length_ofList]
    omega

/-! ## Advancing -/

/-- `s.Advances passed t` — `t` stands behind `s` and the text that has been passed in between, and its
    line is further down by some of the newlines in that. -/
structure Advances (s : Scanner) (passed : List Char) (t : Scanner) : Prop where
  rest : s.rest = passed ++ t.rest
  line_le : s.line ≤ t.line
  le_line : t.line ≤ s.line + passed.count '\n'

theorem Advances.refl (s : Scanner) : s.Advances [] s := ⟨rfl, Nat.le_refl _, Nat.le_add_right _ _⟩

/-- One stretch, and another one behind it. -/
theorem Advances.trans {s t r : Scanner} {passed more : List Char} (h : s.Advances passed t)
    (h' : t.Advances more r) : s.Advances (passed ++ more) r := by
  have hline := h.le_line
  have hline' := h'.le_line
  refine ⟨?_, Nat.le_trans h.line_le h'.line_le, ?_⟩
  · rw [h.rest, h'.rest, List.append_assoc]
  · rw [List.count_append]
    omega

/-- The flag has nothing to do with it. -/
theorem Advances.with_finished {s t : Scanner} {passed : List Char} (h : s.Advances passed t)
    (flag : Bool) : s.Advances passed { t with finished := flag } :=
  ⟨h.rest, h.line_le, h.le_line⟩

theorem advances_next (s : Scanner) : ∃ passed, s.Advances passed s.next.2 := by
  obtain ⟨gap, span, hrest, hline, -⟩ := next_takes s
  refine ⟨gap ++ span, by rw [hrest, List.append_assoc], by omega, ?_⟩
  rw [List.count_append]
  omega

theorem advances_next? (s : Scanner) : ∃ passed, s.Advances passed (s.next?).2 := by
  unfold next?
  split
  · exact ⟨[], .refl s⟩
  · obtain ⟨passed, h⟩ := advances_next s
    exact ⟨passed, h.with_finished _⟩

/-- Collecting goes from item to item. -/
theorem advances_collect (s : Scanner) : ∃ passed, s.Advances passed s.collect.2 := by
  fun_induction collect s with
  | case1 s _ => exact ⟨[], .refl s⟩
  | case2 s _ _ =>
    obtain ⟨passed, h⟩ := advances_next s
    exact ⟨passed, h.with_finished true⟩
  | case3 s _ _ items last hcollect ih =>
    obtain ⟨passed, h⟩ := advances_next s
    obtain ⟨more, h'⟩ := ih
    rw [hcollect] at h'
    exact ⟨passed ++ more, h.trans h'⟩

theorem advances_skip (s : Scanner) (n : Nat) : s.Advances (s.rest.take n) (s.skip n) :=
  ⟨(List.take_append_drop n s.rest).symm, Nat.le_refl _, Nat.le_add_right _ _⟩

/-- **Every move advances.** -/
theorem advances_move (s : Scanner) (move : Move) : ∃ passed, s.Advances passed (s.move move) := by
  cases move with
  | ask call =>
    cases call with
    | next => exact advances_next s
    | next? => exact advances_next? s
  | collect => exact advances_collect s
  | remainder => exact ⟨[], .refl s⟩
  | skip n => exact ⟨_, advances_skip s n⟩

/-- **So does every sequence of moves.** -/
theorem advances_after (s : Scanner) (moves : List Move) :
    ∃ passed, s.Advances passed (s.after moves) := by
  induction moves generalizing s with
  | nil => exact ⟨[], .refl s⟩
  | cons move moves ih =>
    obtain ⟨passed, h⟩ := advances_move s move
    obtain ⟨more, h'⟩ := ih (s.move move)
    exact ⟨passed ++ more, h.trans h'⟩

/-! ## Resuming -/

/-- **Collecting gives the scan of what is left**, on lines that are counted on. -/
theorem collect_eq_scan {s : Scanner} (hline : 1 ≤ s.line) (h : s.finished = false) :
    s.collect.1 = (scan s.remainder).map (Item.later (s.line - 1)) := by
  obtain ⟨pieces, hpieces, hitems⟩ := collect_dissects s h
  obtain ⟨others, hothers, hscan⟩ := scan_dissects s.remainder
  have hlater := hothers.later (s.line - 1)
  rw [show 1 + (s.line - 1) = s.line by omega, remainder, String.toList_ofList] at hlater
  rw [← hitems, hpieces.unique hlater, ← hscan, List.map_map, List.map_map]
  rfl

end Scanner

/-! ## Any sequence of moves -/

namespace ByteScanner

open Lexis

/-- The scanner behind a move; there is none if a slice fails. -/
def move (r : ByteScanner) : Move → Option ByteScanner
  | .ask .next => r.next.map Prod.snd
  | .ask .next? => r.next?.map Prod.snd
  | .collect => r.collect.map Prod.snd
  | .remainder => r.remainder.map fun _ => r
  | .skip n => r.advance n

/-- The scanner behind moves in order; there is none if a slice fails in any of them. -/
def after (r : ByteScanner) (moves : List Move) : Option ByteScanner := moves.foldlM move r

section

variable {r : ByteScanner} {source : String} {s : Scanner}

/-- **No move fails**, and each goes where the scanner on characters goes. -/
theorem tracks_move (h : r.Tracks source s) (move : Move) :
    ∃ behind, r.move move = some behind ∧ behind.Tracks source (s.move move) := by
  cases move with
  | ask call =>
    cases call with
    | next =>
      obtain ⟨behind, hnext, htracks⟩ := tracks_next h
      exact ⟨behind, by rw [ByteScanner.move, hnext]; rfl, htracks⟩
    | next? =>
      obtain ⟨behind, hnext, htracks⟩ := tracks_next? h
      exact ⟨behind, by rw [ByteScanner.move, hnext]; rfl, htracks⟩
  | collect =>
    obtain ⟨behind, hcollect, htracks⟩ := tracks_collect h
    exact ⟨behind, by rw [ByteScanner.move, hcollect]; rfl, htracks⟩
  | remainder => exact ⟨r, by rw [ByteScanner.move, h.remainder_eq]; rfl, h⟩
  | skip n => exact tracks_skip h n

/-- **So does no sequence of moves.** -/
theorem tracks_after (h : r.Tracks source s) (moves : List Move) :
    ∃ behind, r.after moves = some behind ∧ behind.Tracks source (s.after moves) := by
  induction moves generalizing r s with
  | nil => exact ⟨r, rfl, h⟩
  | cons move moves ih =>
    obtain ⟨between, hmove, htracks⟩ := tracks_move h move
    obtain ⟨behind, hafter, htracks'⟩ := ih htracks
    refine ⟨behind, ?_, htracks'⟩
    rw [after, List.foldlM_cons, hmove]
    exact hafter

/-- What stands in front of the cursor is what has been passed. -/
theorem Tracks.stands_passed {passed : List Char} (h : r.Tracks source s)
    (hrest : source.toList = passed ++ s.rest) : r.Stands passed s.rest := by
  obtain ⟨front, hstands⟩ := h.stands
  have happ := hstands.source
  rw [h.source, hrest] at happ
  rwa [List.append_cancel_right happ]

/-- Behind a stretch that has been passed the offset is no smaller. -/
theorem Tracks.offset_le {behind : ByteScanner} {t : Scanner} {passed : List Char}
    (h : r.Tracks source s) (h' : behind.Tracks source t) (hadvances : s.Advances passed t) :
    r.offset ≤ behind.offset := by
  obtain ⟨front, hstands⟩ := h.stands
  obtain ⟨front', hstands'⟩ := h'.stands
  have hsize := hstands.size_eq
  have hsize' := hstands'.size_eq
  rw [h.source, hadvances.rest, byteSize_append] at hsize
  rw [h'.source] at hsize'
  omega

end

/-- **The state of a scanner after any moves.**  No slice has failed.  The cursor stands between two
    characters of the source text; what is left is the slice from there, and the scanner is at the end
    exactly if nothing is left.  The line is further down than the first by the newlines in front of
    the cursor at most.  The next item shortens what is left, unless it is the end token and nothing is
    left behind it.  If the reading has not ended, collecting gives the scan of what is left, with its
    lines counted on.  And no further move fails, or takes the cursor or the line back. -/
theorem after_invariant (source : String) (moves : List Move) :
    ∃ (r : ByteScanner) (passed left : String),
      (ofText source).after moves = some r ∧ r.source = source ∧
      (String.Pos.Raw.mk r.offset).IsValid source ∧
      r.since 0 = some passed ∧ r.remainder = some left ∧ source = passed ++ left ∧
      (r.atEnd = true ↔ left = "") ∧
      1 ≤ r.line ∧ r.line - 1 ≤ passed.toList.count '\n' ∧
      (∃ item behind rest, r.next = some (item, behind) ∧ behind.remainder = some rest ∧
        (item = .token (.endOfFile behind.line) ∧ rest = "" ∨
          item.isEnd = false ∧ rest.length < left.length)) ∧
      (r.finished = false → ∃ items last, r.collect = some (items.map (Item.later (r.line - 1)), last) ∧
        scan left = some items) ∧
      ∀ move, ∃ behind, r.move move = some behind ∧ r.offset ≤ behind.offset ∧
        r.line ≤ behind.line := by
  obtain ⟨passed, hadvances⟩ := Scanner.advances_after (Scanner.ofText source) moves
  obtain ⟨r, hafter, htracks⟩ := tracks_after (tracks_ofText source) moves
  generalize (Scanner.ofText source).after moves = s at hadvances htracks
  have hrest : source.toList = passed ++ s.rest := hadvances.rest
  have hline : 1 ≤ s.line := hadvances.line_le
  have hcount : s.line ≤ 1 + passed.count '\n' := hadvances.le_line
  have hstands : r.Stands passed s.rest := htracks.stands_passed hrest
  refine ⟨r, String.ofList passed, s.remainder, hafter, htracks.source, ?_, hstands.since_zero_eq,
    htracks.remainder_eq, ?_, ?_, ?_, ?_, ?_, ?_, ?_⟩
  · rw [← htracks.source]
    exact hstands.isValid
  · rw [Scanner.remainder, ← String.ofList_append, ← hrest, String.ofList_toList]
  · rw [htracks.atEnd_eq, Scanner.atEnd, List.isEmpty_iff, Scanner.remainder,
      String.ofList_eq_empty_iff]
  · rw [htracks.line]
    exact hline
  · rw [htracks.line, String.toList_ofList]
    omega
  · obtain ⟨behind, hnext, htracks'⟩ := tracks_next htracks
    refine ⟨_, behind, s.next.2.remainder, hnext, htracks'.remainder_eq, ?_⟩
    rw [htracks'.line]
    exact Scanner.next_shortens s
  · intro hfinished
    obtain ⟨last, hcollect, -⟩ := tracks_collect htracks
    rw [htracks.finished] at hfinished
    refine ⟨Scanner.scan s.remainder, last, ?_, scan_eq s.remainder⟩
    rw [hcollect, Scanner.collect_eq_scan hline hfinished, htracks.line]
  · intro move
    obtain ⟨behind, hmove, htracks'⟩ := tracks_move htracks move
    obtain ⟨more, hadvances'⟩ := Scanner.advances_move s move
    refine ⟨behind, hmove, htracks.offset_le htracks' hadvances', ?_⟩
    rw [htracks.line, htracks'.line]
    exact hadvances'.line_le

/-- A skip into a string literal, over a character of two bytes and a newline: three characters are four
    bytes, the newline is not counted, and the quote that would have closed a literal opens one. -/
example :
    ((ofText "\"é\n\" x").after [.skip 3]).map (fun r => (r.offset, r.line, r.remainder)) =
      some (4, 1, some "\" x") := by
  decide +kernel

end ByteScanner

end CalcFrontEnd
