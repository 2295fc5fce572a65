/-
  WORDS AND LINES — what splitting a text at its blanks and at its newlines gives back.

  1. **Words** — everything about `words` follows from one equation: a blank between two texts keeps
     their words apart (`words_append_blank`).  A text without a blank is one word.

  2. **Lines** — a text without a newline in front of one is a line, up to a `'\r'` at its end
     (`lines_append_newline`).

  3. **Result** — `words_lines_intercalate`: joining lines by newlines and taking them apart again may
     lose a `'\r'`, but no word.
-/
import CalcFrontEnd.Text.Blank
import CalcFrontEnd.Text.Line

namespace CalcFrontEnd.Text

/-! ## Words -/

/-- A blank at the front is in no word. -/
theorem words_cons_blank {c : Char} (hc : isBlank c = true) (text : List Char) :
    words (c :: text) = words text := by
  rw [words, if_pos hc]

/-- A character in front of a blank, or at the end, is a word by itself. -/
theorem words_cons_last {c : Char} (hc : isBlank c = false) {text : List Char}
    (h : text.head?.all isBlank = true) : words (c :: text) = [c] :: words text := by
  rw [words, if_neg (by simp [hc]), if_pos h]

/-- A character in front of another one that is no blank joins its word. -/
theorem words_cons_solid {c d : Char} (hc : isBlank c = false) (hd : isBlank d = false)
    (text : List Char) :
    ∃ word others, words (d :: text) = word :: others ∧
      words (c :: d :: text) = (c :: word) :: others := by
  have hsome : ∃ word others, words (d :: text) = word :: others := by
    rw [words, if_neg (by simp [hd])]
    split
    · exact ⟨_, _, rfl⟩
    · split <;> exact ⟨_, _, rfl⟩
  obtain ⟨word, others, h⟩ := hsome
  refine ⟨word, others, h, ?_⟩
  rw [words, if_neg (by simp [hc]), if_neg (by simp [hd]), h]

/-- **A blank keeps words apart.** -/
theorem words_append_blank {c : Char} (hc : isBlank c = true) (front back : List Char) :
    words (front ++ c :: back) = words front ++ words back := by
  induction front with
  | nil => exact words_cons_blank hc back
  | cons d front ih =>
    by_cases hd : isBlank d = true
    · rw [List.cons_append, words_cons_blank hd, words_cons_blank hd, ih]
    · rw [Bool.not_eq_true] at hd
      cases front with
      | nil =>
        show words (d :: c :: back) = words [d] ++ words back
        rw [words_cons_last hd (by simpa using hc), words_cons_blank hc, words_cons_last hd rfl]
        rfl
      | cons e front =>
        by_cases he : isBlank e = true
        · have hnext : ∀ text, (e :: text).head?.all isBlank = true := fun _ => he
          show words (d :: e :: (front ++ c :: back)) = _
          rw [words_cons_last hd (hnext _), words_cons_last hd (hnext _)]
          exact congrArg ([d] :: ·) ih
        · rw [Bool.not_eq_true] at he
          obtain ⟨word, others, hw, hdw⟩ := words_cons_solid hd he front
          obtain ⟨word', others', hw', hdw'⟩ := words_cons_solid hd he (front ++ c :: back)
          -- both sides have the same first word in front of which `d` stands
          have hsame : word' :: others' = word :: (others ++ words back) := by
            rw [← List.cons_append, ← hw, ← ih]
            exact hw'.symm
          cases hsame
          show words (d :: e :: (front ++ c :: back)) = _
          rw [hdw', hdw]
          rfl

/-- Blanks at the front are in no word. -/
theorem words_blanks_append {blanks : List Char} (h : ∀ c ∈ blanks, isBlank c = true)
    (text : List Char) : words (blanks ++ text) = words text := by
  induction blanks with
  | nil => rfl
  | cons c blanks ih =>
    obtain ⟨hc, hblanks⟩ := List.forall_mem_cons.mp h
    rw [List.cons_append, words_cons_blank hc, ih hblanks]

/-- A text without a blank is one word. -/
theorem words_of_solid {text : List Char} (hne : text ≠ []) (h : text.any isBlank = false) :
    words text = [text] := by
  induction text with
  | nil => exact absurd rfl hne
  | cons c text ih =>
    obtain ⟨hc, htext⟩ := Bool.or_eq_false_iff.mp (List.any_cons ▸ h)
    cases text with
    | nil => exact words_cons_last hc rfl
    | cons d text =>
      have hd : isBlank d = false := (Bool.or_eq_false_iff.mp (List.any_cons ▸ htext)).1
      obtain ⟨word, others, hw, hcw⟩ := words_cons_solid hc hd text
      rw [ih (List.cons_ne_nil d text) htext] at hw
      cases hw
      exact hcw

/-- A word is not empty and holds no blank. -/
theorem solid_of_mem_words {text word : List Char} (h : word ∈ words text) :
    word ≠ [] ∧ word.any isBlank = false := by
  induction text generalizing word with
  | nil => cases h
  | cons c text ih =>
    by_cases hc : isBlank c = true
    · rw [words_cons_blank hc] at h
      exact ih h
    · rw [Bool.not_eq_true] at hc
      cases text with
      | nil =>
        rw [words_cons_last hc rfl] at h
        rw [List.mem_singleton.mp h]
        exact ⟨List.cons_ne_nil _ _, by simp [hc]⟩
      | cons d text =>
        by_cases hd : isBlank d = true
        · have hnext : (d :: text).head?.all isBlank = true := hd
          rw [words_cons_last hc hnext] at h
          rcases List.mem_cons.mp h with rfl | h
          · exact ⟨List.cons_ne_nil _ _, by simp [hc]⟩
          · exact ih h
        · rw [Bool.not_eq_true] at hd
          obtain ⟨first, others, hfirst, hjoined⟩ := words_cons_solid hc hd text
          rw [hjoined] at h
          rw [hfirst] at ih
          rcases List.mem_cons.mp h with rfl | h
          · have hsolid := (ih List.mem_cons_self).2
            exact ⟨List.cons_ne_nil _ _, by rw [List.any_cons, hc, hsolid]; rfl⟩
          · exact ih (List.mem_cons_of_mem _ h)

/-- **Words that are joined by single spaces come back.** -/
theorem words_intercalate {parts : List (List Char)}
    (h : ∀ word ∈ parts, word ≠ [] ∧ word.any isBlank = false) :
    words ([' '].intercalate parts) = parts := by
  induction parts with
  | nil => rfl
  | cons word parts ih =>
    obtain ⟨⟨hne, hsolid⟩, hparts⟩ := List.forall_mem_cons.mp h
    cases parts with
    | nil => rw [List.intercalate_singleton, words_of_solid hne hsolid]
    | cons next parts =>
      have hspace : isBlank ' ' = true := by decide
      rw [List.intercalate_cons_of_ne_nil (List.cons_ne_nil next parts), List.append_assoc]
      show words (word ++ ' ' :: [' '].intercalate (next :: parts)) = _
      rw [words_append_blank hspace, words_of_solid hne hsolid, ih hparts]
      rfl

/-- Only blanks hold no word. -/
theorem words_eq_nil_iff {text : List Char} : words text = [] ↔ text.all isBlank = true := by
  induction text with
  | nil => exact ⟨fun _ => rfl, fun _ => rfl⟩
  | cons c text ih =>
    by_cases hc : isBlank c = true
    · rw [words_cons_blank hc, List.all_cons, hc, Bool.true_and]
      exact ih
    · have hsome : words (c :: text) ≠ [] := by
        rw [words, if_neg hc]
        split
        · exact List.cons_ne_nil _ _
        · split <;> exact List.cons_ne_nil _ _
      rw [List.all_cons, Bool.and_eq_true]
      exact ⟨fun h => absurd h hsome, fun h => absurd h.1 hc⟩

/-! ## Lines -/

/-- A text without the `'\r'` that it may end in. -/
def chomp : List Char → List Char
  | [] => []
  | ['\r'] => []
  | c :: text => c :: chomp text

/-- At most one `'\r'` is taken off the end. -/
theorem chomp_cases (text : List Char) : chomp text = text ∨ text = chomp text ++ ['\r'] := by
  fun_induction chomp text with
  | case1 => exact Or.inl rfl
  | case2 => exact Or.inr rfl
  | case3 c text _ ih =>
    rcases ih with h | h
    · exact Or.inl (by rw [h])
    · exact Or.inr (by rw [List.cons_append, ← h])

/-- A `'\r'` is a blank, so losing one loses no word. -/
theorem words_chomp (text : List Char) : words (chomp text) = words text := by
  rcases chomp_cases text with h | h
  · rw [h]
  · have hblank : isBlank '\r' = true := by decide
    have hwords := words_append_blank hblank (chomp text) []
    rw [← h] at hwords
    rw [hwords]
    exact (List.append_nil _).symm

/-- Any character but a line ending stands on the line of the text behind it. -/
theorem lines_cons {c : Char} (hc : c ≠ '\n') {text : List Char}
    (h : c = '\r' → text.head? ≠ some '\n') :
    lines (c :: text) = (c :: (lines text).headD []) :: (lines text).tail := by
  rw [lines]
  · cases lines text <;> rfl
  · exact hc
  · rintro rest hr rfl
    exact h hr rfl

/-- **A text in front of a newline is a line.** -/
theorem lines_append_newline {front : List Char} (h : '\n' ∉ front) (text : List Char) :
    lines (front ++ '\n' :: text) = chomp front :: lines text := by
  induction front with
  | nil => rw [List.nil_append, lines, chomp]
  | cons c front ih =>
    have hc : c ≠ '\n' := fun hc => h (hc ▸ List.mem_cons_self)
    have hfront : '\n' ∉ front := fun hmem => h (List.mem_cons_of_mem _ hmem)
    cases front with
    | nil =>
      by_cases hr : c = '\r'
      · subst hr
        rw [List.cons_append, List.nil_append, lines, chomp]
      · have hchomp : chomp [c] = [c] := by
          rw [chomp]
          · rfl
          · rintro rfl
            exact absurd rfl hr
        rw [List.cons_append, lines_cons hc (fun hcr => absurd hcr hr), ih hfront, hchomp]
        rfl
    | cons d front =>
      have hd : d ≠ '\n' := fun hd => hfront (hd ▸ List.mem_cons_self)
      have hchomp : chomp (c :: d :: front) = c :: chomp (d :: front) := by
        rw [chomp]
        rintro - h
        cases h
      rw [List.cons_append, lines_cons hc (fun _ => by simpa using hd), ih hfront, hchomp]
      rfl

/-- A last line needs no newline, unless it is empty. -/
theorem lines_of_no_newline {text : List Char} (hne : text ≠ []) (h : '\n' ∉ text) :
    lines text = [text] := by
  induction text with
  | nil => exact absurd rfl hne
  | cons c text ih =>
    have hc : c ≠ '\n' := fun hc => h (hc ▸ List.mem_cons_self)
    have htext : '\n' ∉ text := fun hmem => h (List.mem_cons_of_mem _ hmem)
    have hhead : text.head? ≠ some '\n' := fun hhead => htext (List.mem_of_head? hhead)
    rw [lines_cons hc (fun _ => hhead)]
    cases text with
    | nil => rfl
    | cons d text =>
      rw [ih (List.cons_ne_nil d text) htext]
      rfl

/-- **Joined lines come back with their words**, if none holds a newline or is empty. -/
theorem words_lines_intercalate {texts : List (List Char)}
    (h : ∀ text ∈ texts, text ≠ [] ∧ '\n' ∉ text) :
    (lines (['\n'].intercalate texts)).map words = texts.map words := by
  induction texts with
  | nil => rfl
  | cons text texts ih =>
    obtain ⟨⟨hne, hnewline⟩, htexts⟩ := List.forall_mem_cons.mp h
    cases texts with
    | nil => rw [List.intercalate_singleton, lines_of_no_newline hne hnewline]
    | cons next texts =>
      rw [List.intercalate_cons_of_ne_nil (List.cons_ne_nil next texts), List.append_assoc]
      show (lines (text ++ '\n' :: ['\n'].intercalate (next :: texts))).map words = _
      rw [lines_append_newline hnewline, List.map_cons, words_chomp, ih htexts]
      rfl

end CalcFrontEnd.Text
