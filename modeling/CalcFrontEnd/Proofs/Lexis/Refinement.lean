/-
  REFINEMENT — the scanner on bytes does what the scanner on characters does, and never fails.

  1. **Specification** — `r.Tracks source s`: `r` is a scanner on the bytes of `source`, its cursor stands
     in front of the text that `s` has left, and the two agree on the line and on the flag.

  2. **One operation after another** — from tracking scanners each operation succeeds, gives the same, and
     leads to tracking scanners again: `tracks_next`, `tracks_next?`, `tracks_collect`, `tracks_skip`.
     What a cursor sees is what is left (`Tracks.remainder_eq`, `Tracks.atEnd_eq`).

  3. **Result** — `scan_eq`: a whole text is scanned without a failing slice, and to the same items.
-/
import CalcFrontEnd.Lexis.ByteScanner
import CalcFrontEnd.Proofs.Lexis.Walk

namespace CalcFrontEnd.ByteScanner

open Lexis

/-- `r.Tracks source s` — the cursor of `r` stands in `source` in front of what `s` has left, and the two
    are on the same line and have the same flag. -/
structure Tracks (r : ByteScanner) (source : String) (s : Scanner) : Prop where
  source : r.source = source
  stands : ∃ front, r.Stands front s.rest
  line : r.line = s.line
  finished : r.finished = s.finished

theorem tracks_ofText (source : String) : (ofText source).Tracks source (Scanner.ofText source) :=
  ⟨rfl, ⟨[], stands_ofText source⟩, rfl, rfl⟩

section

variable {r : ByteScanner} {source : String} {s : Scanner}

/-- What a cursor sees is what is left. -/
theorem Tracks.remainder_eq (h : r.Tracks source s) : r.remainder = some s.remainder := by
  obtain ⟨front, hstands⟩ := h.stands
  exact hstands.remainder_eq

theorem Tracks.atEnd_eq (h : r.Tracks source s) : r.atEnd = s.atEnd := by
  obtain ⟨front, hstands⟩ := h.stands
  rw [Bool.eq_iff_iff, hstands.atEnd_iff, Scanner.atEnd, List.isEmpty_iff]

/-- The flags may be set together. -/
theorem Tracks.with_finished (h : r.Tracks source s) (flag : Bool) :
    ({ r with finished := flag } : ByteScanner).Tracks source { s with finished := flag } :=
  ⟨h.source, h.stands.imp fun _ hstands => ⟨hstands.source, hstands.offset⟩, h.line, rfl⟩

/-- **The next item** is the same. -/
theorem tracks_next (h : r.Tracks source s) :
    ∃ behind, r.next = some (s.next.1, behind) ∧ behind.Tracks source s.next.2 := by
  obtain ⟨front, hstands⟩ := h.stands
  cases hsplit : splitTrivia false s.rest with
  | mk gap rest =>
    have hgap := append_of_splitTrivia hsplit
    have hline : (r.overGap gap).line = s.line + gap.count '\n' := congrArg (· + _) h.line
    cases rest with
    | nil =>
      rw [next_of_nil hstands hsplit, Scanner.next_of_nil hsplit, hline]
      rw [← hgap] at hstands
      exact ⟨_, rfl, h.source, ⟨_, hstands.overGap⟩, hline, h.finished⟩
    | cons c behind =>
      rw [next_of_cons hstands hsplit, Scanner.next_of_cons hsplit, hline]
      rw [← hgap] at hstands
      have hcut := hstands.overGap
      rw [← cut_append] at hcut
      exact ⟨_, rfl, h.source, ⟨_, hcut.pass⟩, hline, h.finished⟩

theorem tracks_next? (h : r.Tracks source s) :
    ∃ behind, r.next? = some (s.next?.1, behind) ∧ behind.Tracks source s.next?.2 := by
  unfold next? Scanner.next?
  rw [h.finished]
  split
  · exact ⟨r, rfl, h⟩
  · obtain ⟨behind, hnext, htracks⟩ := tracks_next h
    rw [hnext]
    exact ⟨_, rfl, htracks.with_finished _⟩

/-- A skip passes the characters that are dropped. -/
theorem tracks_skip (h : r.Tracks source s) (n : Nat) :
    ∃ behind, r.advance n = some behind ∧ behind.Tracks source (s.skip n) := by
  obtain ⟨front, hstands⟩ := h.stands
  refine ⟨_, hstands.advance_eq n, h.source, ?_, h.line, h.finished⟩
  rw [← List.take_append_drop n s.rest] at hstands
  exact ⟨_, hstands.pass⟩

end

/-- **Collecting** goes from item to item alike. -/
theorem tracks_collect {r : ByteScanner} {source : String} {s : Scanner} (h : r.Tracks source s) :
    ∃ behind, r.collect = some (s.collect.1, behind) ∧ behind.Tracks source s.collect.2 := by
  fun_induction Scanner.collect s generalizing r with
  | case1 s hfinished =>
    obtain ⟨behind, hnext, htracks⟩ := tracks_next? h
    rw [Scanner.next?, if_pos hfinished] at hnext htracks
    exact ⟨behind, by rw [collect_turn, hnext]; rfl, htracks⟩
  | case2 s hfinished hend =>
    obtain ⟨behind, hnext, htracks⟩ := tracks_next? h
    rw [Scanner.next?, if_neg hfinished, hend] at hnext htracks
    have hstop : behind.collect = some ([], behind) := by
      rw [collect_turn, next?, if_pos htracks.finished]
      rfl
    refine ⟨behind, ?_, htracks⟩
    rw [collect_turn, hnext]
    simp [hstop]
  | case3 s hfinished hend items last hcollect ih =>
    obtain ⟨behind, hnext, htracks⟩ := tracks_next? h
    -- the flag stays down, so `next?` goes where `next` does
    have hkeep : s.next.2.finished = s.finished :=
      congrArg (fun given => given.2.finished) (Scanner.next_with_finished s s.finished)
    have hopen : s.next?.2 = s.next.2 := by
      rw [Scanner.next?, if_neg hfinished, eq_false_of_ne_true hend,
        ← eq_false_of_ne_true hfinished, ← hkeep]
    rw [hopen] at htracks
    obtain ⟨final, hrest, hfinal⟩ := ih htracks
    rw [hcollect] at hrest hfinal
    refine ⟨final, ?_, hfinal⟩
    rw [collect_turn, hnext, Scanner.next?, if_neg hfinished]
    simp [hrest]

/-- **A whole text is scanned without a failing slice**, and to the same items. -/
theorem scan_eq (source : String) : scan source = some (Scanner.scan source) := by
  obtain ⟨behind, hcollect, -⟩ := tracks_collect (tracks_ofText source)
  rw [scan, hcollect]
  rfl

end CalcFrontEnd.ByteScanner
