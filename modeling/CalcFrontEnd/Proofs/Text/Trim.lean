/-
  TRIMMED LINES — where a stretch of text can be seen.

  1. **Specification** — a stretch is `Tight` if no blank stands at either end of it.

  2. **Trimming** — takes nothing off a tight stretch, wherever it stands in a line (`infix_trim`), and
     what it leaves of a text that starts with no blank is tight (`tight_trimEnd`).

  3. **Lines** — the number of newlines in front of a stretch names the line it is on
     (`lineAt?_append`).  The `'\r'` of a line's ending may be lost, but it is trimmed off anyway.

  4. **Result** — `infix_trim_lineAt?`: a tight stretch is seen in the trimmed line of its number.
-/
import CalcFrontEnd.Proofs.Text.Words

namespace CalcFrontEnd.Text

/-! ## Trimming -/

/-- `Tight text` — there is no blank at either end of the text, nor is it empty. -/
structure Tight (text : List Char) : Prop where
  first : ∃ c, text.head? = some c ∧ isBlank c = false
  last : ∃ c, text.getLast? = some c ∧ isBlank c = false

theorem Tight.ne_nil {text : List Char} (h : Tight text) : text ≠ [] := by
  obtain ⟨c, hc, -⟩ := h.first
  rintro rfl
  cases hc

theorem Tight.reverse {text : List Char} (h : Tight text) : Tight text.reverse := by
  refine ⟨?_, ?_⟩
  · rw [List.head?_reverse]
    exact h.last
  · rw [List.getLast?_reverse]
    exact h.first

/-- What holds no blank at all is tight, unless it is empty. -/
theorem tight_of_solid {text : List Char} (hne : text ≠ []) (h : ∀ c ∈ text, isBlank c = false) :
    Tight text := by
  constructor
  · obtain ⟨c, rest, rfl⟩ := List.exists_cons_of_ne_nil hne
    exact ⟨c, rfl, h c List.mem_cons_self⟩
  · obtain ⟨init, c, rfl⟩ := (List.eq_nil_or_concat text).resolve_left hne
    refine ⟨c, ?_, h c ?_⟩
    · rw [List.concat_eq_append, List.getLast?_concat]
    · rw [List.concat_eq_append]
      exact List.mem_append_right _ List.mem_cons_self

/-- Dropping blanks stops in front of a tight stretch. -/
theorem Tight.dropWhile_append {text : List Char} (h : Tight text) (left right : List Char) :
    ∃ kept, (left ++ (text ++ right)).dropWhile isBlank = kept ++ (text ++ right) := by
  induction left with
  | nil =>
    obtain ⟨c, hhead, hc⟩ := h.first
    obtain ⟨rest, rfl⟩ := List.head?_eq_some_iff.mp hhead
    exact ⟨[], by simp [hc]⟩
  | cons d left ih =>
    by_cases hd : isBlank d = true
    · obtain ⟨kept, hkept⟩ := ih
      exact ⟨kept, by rw [List.cons_append, List.dropWhile_cons_of_pos hd, hkept]⟩
    · exact ⟨d :: left, List.dropWhile_cons_of_neg hd⟩

/-- **A tight stretch is left as it is**, wherever it stands. -/
theorem infix_trim {text : List Char} (h : Tight text) (left right : List Char) :
    text <:+: trim (left ++ (text ++ right)) := by
  obtain ⟨front, hfront⟩ := h.dropWhile_append left right
  obtain ⟨back, hback⟩ := h.reverse.dropWhile_append right.reverse front.reverse
  have hreverse : (front ++ (text ++ right)).reverse =
      right.reverse ++ (text.reverse ++ front.reverse) := by simp
  unfold trim trimEnd
  rw [hfront, hreverse, hback]
  exact ⟨front, back.reverse, by simp⟩

/-- A blank at the end is trimmed off. -/
theorem trimEnd_concat {c : Char} (hc : isBlank c = true) (text : List Char) :
    trimEnd (text ++ [c]) = trimEnd text := by
  simp [trimEnd, hc]

/-- What ends with no blank is left as it is. -/
theorem trimEnd_of_last {text : List Char} {c : Char} (h : text.getLast? = some c)
    (hc : isBlank c = false) : trimEnd text = text := by
  obtain ⟨init, rfl⟩ := List.getLast?_eq_some_iff.mp h
  simp [trimEnd, hc]

/-- What is left is a front part. -/
theorem trimEnd_append (text : List Char) : ∃ blanks, text = trimEnd text ++ blanks := by
  refine ⟨(text.reverse.takeWhile isBlank).reverse, ?_⟩
  unfold trimEnd
  rw [← List.reverse_append, List.takeWhile_append_dropWhile, List.reverse_reverse]

/-- What is no blank is kept, and the trimming goes on behind it. -/
theorem trimEnd_cons {c : Char} (hc : isBlank c = false) (text : List Char) :
    trimEnd (c :: text) = c :: trimEnd text := by
  unfold trimEnd
  rw [List.reverse_cons, List.dropWhile_append]
  split
  · rename_i hempty
    simp [List.isEmpty_iff.mp hempty, hc]
  · exact List.reverse_concat

/-- **What starts with no blank is tight behind trimming.** -/
theorem tight_trimEnd {text : List Char} {c : Char} (h : text.head? = some c)
    (hc : isBlank c = false) : Tight (trimEnd text) := by
  obtain ⟨rest, rfl⟩ := List.head?_eq_some_iff.mp h
  have hcons := trimEnd_cons hc rest
  refine ⟨⟨c, by rw [hcons]; rfl, hc⟩, ?_⟩
  obtain ⟨d, hd⟩ : ∃ d, (trimEnd (c :: rest)).getLast? = some d := by
    rw [hcons, List.getLast?_cons]
    exact ⟨_, rfl⟩
  refine ⟨d, hd, ?_⟩
  -- the last character is where the dropping of blanks from the other end stopped
  have hstop := List.head?_dropWhile_not isBlank (c :: rest).reverse
  unfold trimEnd at hd
  rw [List.getLast?_reverse] at hd
  rw [hd] at hstop
  exact hstop

/-- A newline that can only be the last character is trimmed off. -/
theorem newline_not_mem_trimEnd {text : List Char} (h : Tight (trimEnd text))
    (hnewline : '\n' ∉ text.dropLast) : '\n' ∉ trimEnd text := by
  obtain ⟨d, hd, hblank⟩ := h.last
  obtain ⟨init, hinit⟩ := List.getLast?_eq_some_iff.mp hd
  obtain ⟨blanks, hsplit⟩ := trimEnd_append text
  have hdropLast : text.dropLast = init ++ (d :: blanks).dropLast := by
    rw [hsplit, hinit, List.append_assoc, List.singleton_append,
      List.dropLast_append_of_ne_nil (List.cons_ne_nil _ _)]
  rw [hinit]
  intro hmem
  rcases List.mem_append.mp hmem with hmem | hmem
  · exact hnewline (hdropLast ▸ List.mem_append_left _ hmem)
  · rw [← List.mem_singleton.mp hmem] at hblank
    exact absurd hblank (by decide)

theorem trim_chomp (text : List Char) : trim (chomp text) = trim text := by
  rcases chomp_cases text with h | h
  · rw [h]
  · have hblank : isBlank '\r' = true := by decide
    -- the blank is trimmed off whether or not there is anything else
    have hconcat : trim (chomp text ++ ['\r']) = trim (chomp text) := by
      unfold trim
      rw [List.dropWhile_append]
      split
      · rename_i hempty
        rw [List.isEmpty_iff.mp hempty, List.dropWhile_cons_of_pos hblank]
        rfl
      · exact trimEnd_concat hblank _
    rw [← h] at hconcat
    exact hconcat.symm

/-! ## Lines -/

/-- Behind a whole line the others are counted on. -/
theorem lineAt?_append_newline {front : List Char} (h : '\n' ∉ front) (text : List Char) (n : Nat) :
    lineAt? (front ++ '\n' :: text) (n + 2) = lineAt? text (n + 1) := by
  show (lines (front ++ '\n' :: text))[n + 1]? = (lines text)[n]?
  rw [lines_append_newline h, List.getElem?_cons_succ]

/-- A text without a newline in front is on the first line. -/
theorem lineAt?_one {span : List Char} (hne : span ≠ []) (hspan : '\n' ∉ span) (back : List Char) :
    ∃ line right, lineAt? (span ++ back) 1 = some line ∧ trim line = trim (span ++ right) := by
  by_cases hback : '\n' ∈ back
  · obtain ⟨right, others, rfl, hright⟩ := List.eq_append_cons_of_mem hback
    have hline : '\n' ∉ span ++ right := by simp [hspan, hright]
    refine ⟨chomp (span ++ right), right, ?_, trim_chomp _⟩
    show (lines (span ++ (right ++ '\n' :: others)))[0]? = _
    rw [← List.append_assoc, lines_append_newline hline]
    rfl
  · have hline : '\n' ∉ span ++ back := by simp [hspan, hback]
    refine ⟨span ++ back, back, ?_, rfl⟩
    show (lines (span ++ back))[0]? = _
    rw [lines_of_no_newline (by simp [hne]) hline]
    rfl

/-- **A stretch without a newline is on the line that the newlines in front of it name.** -/
theorem lineAt?_append (front : List Char) {span : List Char} (hne : span ≠ []) (hspan : '\n' ∉ span)
    (back : List Char) :
    ∃ line left right, lineAt? (front ++ (span ++ back)) (front.count '\n' + 1) = some line ∧
      trim line = trim (left ++ (span ++ right)) := by
  by_cases hfront : '\n' ∈ front
  · -- leave the first line
    obtain ⟨first, others, rfl, hfirst⟩ := List.eq_append_cons_of_mem hfront
    obtain ⟨line, left, right, hline, htrim⟩ := lineAt?_append others hne hspan back
    refine ⟨line, left, right, ?_, htrim⟩
    have hcount : (first ++ '\n' :: others).count '\n' = others.count '\n' + 1 := by
      rw [List.count_append, List.count_eq_zero.mpr hfirst, List.count_cons_self, Nat.zero_add]
    rw [hcount, List.append_assoc, List.cons_append, lineAt?_append_newline hfirst, hline]
  · have hline : '\n' ∉ front ++ span := by simp [hfront, hspan]
    obtain ⟨line, right, hfound, htrim⟩ := lineAt?_one (by simp [hne]) hline back
    refine ⟨line, front, right, ?_, ?_⟩
    · rw [List.count_eq_zero.mpr hfront, ← List.append_assoc]
      exact hfound
    · rw [htrim, List.append_assoc]
termination_by front.length

/-- Lines are counted without a gap. -/
theorem lineAt?_of_le {text : List Char} {m n : Nat} (hn : 1 ≤ n) (hle : n ≤ m)
    (h : ∃ line, lineAt? text m = some line) : ∃ line, lineAt? text n = some line := by
  obtain ⟨line, hline⟩ := h
  obtain ⟨i, rfl⟩ : ∃ i, n = i + 1 := ⟨n - 1, by omega⟩
  obtain ⟨j, rfl⟩ : ∃ j, m = j + 1 := ⟨m - 1, by omega⟩
  have hj : j < (lines text).length := (List.getElem?_eq_some_iff.mp hline).1
  have hi : i < (lines text).length := by omega
  exact ⟨(lines text)[i], List.getElem?_eq_getElem hi⟩

/-- **A tight stretch is seen in the trimmed line that it is on.** -/
theorem infix_trim_lineAt? (front : List Char) {span : List Char} (hspan : '\n' ∉ span)
    (h : Tight span) (back : List Char) :
    ∃ line, lineAt? (front ++ (span ++ back)) (front.count '\n' + 1) = some line ∧
      span <:+: trim line := by
  obtain ⟨line, left, right, hline, htrim⟩ := lineAt?_append front h.ne_nil hspan back
  refine ⟨line, hline, ?_⟩
  rw [htrim]
  exact infix_trim h left right

end CalcFrontEnd.Text
