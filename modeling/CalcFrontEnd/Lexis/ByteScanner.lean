/-
  THE BYTE SCANNER — a source text read item by item, with every look at it a slice.

  1. **Program** — the scanner as it works on a byte offset.  `next` goes over blanks and comments one
     after another; the first other character says what is read, and each kind of item has a reader of
     its own.  A reader keeps the offset where it started, moves on by characters, and takes its text
     out as the slice between the two.  Every slice may fail, and then so does the reader.

  2. **Specification** — `cut` on the characters that are left.  Where the cursor stands between two
     characters a reader does not fail, reports the cut, and passes its span: `readString_eq`,
     `readWord_eq`, `readNumber_eq`, `readOperator_eq`, and hence `read_eq`, are all of this one form.

  3. **Progress** — so `next` takes a gap and a span (`next_of_nil`, `next_of_cons`), and every item but
     the end token brings the end nearer (`isEnd_or_left_lt`).  This is what makes `collect` end.
-/
import CalcFrontEnd.Lexis.ByteCursor
import CalcFrontEnd.Lexis.Cut
import CalcFrontEnd.Lexis.Trivia

namespace CalcFrontEnd

open Text Lexis

namespace ByteScanner

/-! ## Items -/

/-- The token whose text goes from an earlier offset up to the cursor. -/
def tokenSince (r : ByteScanner) (kind : Kind) (start : Nat) : Option Item := do
  return .token ⟨kind, ← r.since start, r.line⟩

/-- The error in the text from an earlier offset up to the cursor. -/
def errorSince (r : ByteScanner) (fault : LexicalFault) (start : Nat) : Option Item := do
  return .error ⟨fault, String.ofList (carriedText fault (← r.since start).toList), r.line⟩

/-! ## Readers -/

/-- Reads a string literal, in front of its opening quote. -/
def readString (r : ByteScanner) : Option (Item × ByteScanner) := do
  let inside ← r.advance 1
  let behind ← inside.passWhile isStringPart
  match ← behind.peek with
  | none => return (← behind.errorSince .illegalCharacter r.offset, behind)
  | some c =>
    if c = '"' then
      let closed ← behind.advance 1
      return (← closed.tokenSince .string r.offset, closed)
    else return (← behind.errorSince .unterminatedString r.offset, behind)

/-- The word at the front of a text, if there is one. -/
def wordAt? : List Char → Option (List Char)
  | [] => none
  | c :: text => if isWordStart c then some (c :: text.takeWhile isWordPart) else none

/-- Reads a word that has been found in front of the cursor. -/
def readWord (r : ByteScanner) (word : List Char) : Option (Item × ByteScanner) := do
  let behind ← r.advance word.length
  return (.token ⟨Kind.ofWord word, String.ofList word, behind.line⟩, behind)

/-- Reads the rest of a number that starts at `start`, from where an exponent may stand. -/
def readExponent (r : ByteScanner) (start : Nat) : Option (Item × ByteScanner) := do
  let mark ← r.peek
  if mark = some 'e' ∨ mark = some 'E' then
    let sign ← r.peekNth 1
    let width := if sign = some '+' ∨ sign = some '-' then 2 else 1
    let digit ← r.peekNth width
    if digit.any Char.isDigit then
      let digits ← r.advance width
      let behind ← digits.passWhile Char.isDigit
      return (← behind.tokenSince .number start, behind)
    else
      let behind ← r.advance (if digit.any isAlphabetic then width + 1 else width)
      return (← behind.errorSince .invalidNumber start, behind)
  else return (← r.tokenSince .number start, r)

/-- Reads the rest of a number that starts at `start`, from where a fraction may stand. -/
def readFraction (r : ByteScanner) (start : Nat) : Option (Item × ByteScanner) := do
  if (← r.peek) = some '.' then
    if (← r.peekNth 1).any Char.isDigit then
      let digits ← r.advance 1
      let behind ← digits.passWhile Char.isDigit
      behind.readExponent start
    else
      let behind ← r.advance 2
      return (← behind.errorSince .invalidNumber start, behind)
  else r.readExponent start

/-- Reads a number, in front of its first digit. -/
def readNumber (r : ByteScanner) : Option (Item × ByteScanner) := do
  let behind ← r.passWhile Char.isDigit
  behind.readFraction r.offset

/-- Reads an operator, or gives up the characters that start no token. -/
def readOperator (r : ByteScanner) : Option (Item × ByteScanner) := do
  let text ← r.remainder
  match Kind.operatorAt? text.toList with
  | some (kind, spelling) =>
    let behind ← r.advance spelling.length
    return (.token ⟨kind, String.ofList spelling, r.line⟩, behind)
  | none =>
    let behind ← r.advance illegalWidth
    return (.error ⟨.illegalCharacter, String.ofList (text.toList.take illegalWidth), r.line⟩, behind)

/-- Reads the token or the faulty span that starts with `c`, which comes next. -/
def read (r : ByteScanner) (c : Char) : Option (Item × ByteScanner) := do
  let text ← r.remainder
  if c = '"' then r.readString
  else match wordAt? text.toList with
    | some word => r.readWord word
    | none =>
      if c.isDigit then r.readNumber
      else if c = '.' then
        let behind ← r.advance 1
        return (.error ⟨.illegalCharacter, String.ofList [c], r.line⟩, behind)
      else r.readOperator

/-! ## What the readers do -/

section

variable {r : ByteScanner} {front span back text : List Char}

theorem tokenSince_eq (h : r.Stands front (span ++ back)) (kind : Kind) :
    (r.pass span).tokenSince kind r.offset = some ((Cut.mk (.token kind) span back).item r.line) := by
  rw [tokenSince, h.since_eq]
  rfl

theorem errorSince_eq (h : r.Stands front (span ++ back)) (fault : LexicalFault) :
    (r.pass span).errorSince fault r.offset =
      some ((Cut.mk (.fault fault) span back).item r.line) := by
  rw [errorSince, h.since_eq]
  simp [Cut.item]

/-- A string literal runs up to a quote, a newline or the end of the text. -/
theorem readString_eq (h : r.Stands front ('"' :: text)) :
    r.readString = some ((cutString text).item r.line, r.pass (cutString text).span) := by
  have hinside : (r.pass ['"']).Stands (front ++ ['"']) text := h.pass
  have happ := List.takeWhile_append_dropWhile (p := isStringPart) (l := text)
  unfold readString cutString
  rw [show r.advance 1 = some (r.pass ['"']) from h.advance_eq 1]
  simp only [Option.bind_eq_bind, Option.bind_some, hinside.passWhile_eq, pass_pass,
    List.cons_append, List.nil_append]
  generalize text.takeWhile isStringPart = body at happ
  cases hrest : text.dropWhile isStringPart with
  | nil =>
    rw [hrest] at happ
    have hspan : r.Stands front (('"' :: body) ++ []) := by rw [List.cons_append, happ]; exact h
    simp [hspan.pass.peek_eq, errorSince_eq hspan]
  | cons c rest =>
    rw [hrest] at happ
    have hspan : r.Stands front (('"' :: body) ++ c :: rest) := by
      rw [List.cons_append, happ]
      exact h
    have hpeek : (r.pass ('"' :: body)).peek = some (some c) := hspan.pass.peek_eq
    simp only [hpeek, Option.bind_some]
    split
    · have hclosed : r.Stands front (('"' :: (body ++ [c])) ++ rest) := by simpa using hspan
      have hadvance : (r.pass ('"' :: body)).advance 1 = some (r.pass ('"' :: (body ++ [c]))) := by
        rw [hspan.pass.advance_eq, pass_pass]
        rfl
      simp [hadvance, tokenSince_eq hclosed]
    · simp [errorSince_eq hspan]

/-- A word is found on the text that is left, and passed by as many characters as it has. -/
theorem readWord_eq {c : Char} (h : r.Stands front (c :: text)) :
    r.readWord (c :: text.takeWhile isWordPart) =
      some ((cutWord c text).item r.line, r.pass (cutWord c text).span) := by
  rw [← cutWord_append] at h
  rw [readWord, show r.advance (c :: text.takeWhile isWordPart).length = _ from h.advance_length]
  rfl

/-- The sign of an exponent is one character wide, or not there. -/
theorem width_eq (afterMark : List Char) :
    (if afterMark.head? = some '+' ∨ afterMark.head? = some '-' then 2 else 1) =
      (signOf afterMark).length + 1 := by
  cases afterMark with
  | nil => rfl
  | cons c text =>
    simp only [List.head?_cons, Option.some.injEq, signOf]
    split <;> rfl

/-- An exponent goes on behind what has been read of its number. -/
theorem readExponent_eq {mantissa : List Char} (h : r.Stands front (mantissa ++ text)) :
    (r.pass mantissa).readExponent r.offset =
      some ((cutExponent mantissa text).item r.line, r.pass (cutExponent mantissa text).span) := by
  unfold readExponent cutExponent
  simp only [h.pass.peek_eq, h.pass.peekNth_eq, Option.bind_eq_bind, Option.bind_some]
  cases text with
  | nil => simp [tokenSince_eq h]
  | cons mark afterMark =>
    have happ := signOf_append_drop afterMark
    simp only [List.head?_cons, Option.some.injEq, List.getElem?_cons_succ,
      ← List.head?_eq_getElem?, width_eq]
    split
    · generalize signOf afterMark = sign at happ
      generalize afterMark.drop sign.length = rest at happ
      subst happ
      have hfront : r.Stands front ((mantissa ++ mark :: sign) ++ rest) := by simpa using h
      have hadvance : (r.pass mantissa).advance (sign.length + 1) =
          some (r.pass (mantissa ++ mark :: sign)) := h.advance_length_pass (mark :: sign)
      cases rest with
      | nil => simp [errorSince_eq hfront, hadvance]
      | cons c rest =>
        simp only [List.getElem?_append_right (Nat.le_refl sign.length), Nat.sub_self,
          List.getElem?_cons_zero, Option.any_some]
        by_cases hdigit : c.isDigit = true
        · -- the digits go on
          have hspan : r.Stands front ((mantissa ++ mark :: (sign ++
              c :: rest.takeWhile Char.isDigit)) ++ rest.dropWhile Char.isDigit) := by
            simpa [List.takeWhile_append_dropWhile] using h
          simp [hadvance, hdigit, hfront.pass.passWhile_eq, tokenSince_eq hspan]
        · by_cases hletter : isAlphabetic c = true
          · -- one letter more is given up
            have hspan : r.Stands front ((mantissa ++ mark :: (sign ++ [c])) ++ rest) := by
              simpa using h
            have hadvance' : (r.pass mantissa).advance (sign.length + 1 + 1) =
                some (r.pass (mantissa ++ mark :: (sign ++ [c]))) := by
              rw [List.append_assoc] at hspan
              simpa using hspan.advance_length_pass _
            simp [hadvance', hdigit, hletter, errorSince_eq hspan]
          · simp [hadvance, hdigit, hletter, errorSince_eq hfront]
    · simp [tokenSince_eq h]

/-- So does a fraction. -/
theorem readFraction_eq {whole : List Char} (h : r.Stands front (whole ++ text)) :
    (r.pass whole).readFraction r.offset =
      some ((cutFraction whole text).item r.line, r.pass (cutFraction whole text).span) := by
  unfold readFraction cutFraction
  simp only [h.pass.peek_eq, h.pass.peekNth_eq, Option.bind_eq_bind, Option.bind_some]
  cases text with
  | nil => simpa using readExponent_eq h
  | cons c afterPoint =>
    by_cases hpoint : c = '.'
    · subst hpoint
      cases afterPoint with
      | nil =>
        have hadvance : (r.pass whole).advance 2 = some (r.pass (whole ++ ['.'])) := by
          rw [h.pass.advance_eq, pass_pass]
          rfl
        have hspan : r.Stands front ((whole ++ ['.']) ++ []) := by simpa using h
        simp [hadvance, errorSince_eq hspan]
      | cons d rest =>
        by_cases hdigit : d.isDigit = true
        · have hadvance : (r.pass whole).advance 1 = some (r.pass (whole ++ ['.'])) :=
            h.advance_length_pass ['.']
          have hdigits : r.Stands front ((whole ++ ['.']) ++ d :: rest) := by simpa using h
          have hspan : r.Stands front ((whole ++ '.' :: d :: rest.takeWhile Char.isDigit) ++
              rest.dropWhile Char.isDigit) := by
            simpa [List.takeWhile_append_dropWhile] using h
          simp [hadvance, hdigit, hdigits.pass.passWhile_eq, readExponent_eq hspan]
        · -- the character behind the point is given up with it
          have hadvance : (r.pass whole).advance 2 = some (r.pass (whole ++ ['.', d])) :=
            h.advance_length_pass ['.', d]
          have hspan : r.Stands front ((whole ++ ['.', d]) ++ rest) := by simpa using h
          simp [hadvance, hdigit, errorSince_eq hspan]
    · simp [hpoint, readExponent_eq h]

/-- A number starts with its digits. -/
theorem readNumber_eq {c : Char} (h : r.Stands front (c :: text)) (hc : c.isDigit = true) :
    r.readNumber = some ((cutNumber c text).item r.line, r.pass (cutNumber c text).span) := by
  have hwhole : r.Stands front
      ((c :: text.takeWhile Char.isDigit) ++ text.dropWhile Char.isDigit) := by
    rw [List.cons_append, List.takeWhile_append_dropWhile]
    exact h
  rw [readNumber, h.passWhile_eq, List.takeWhile_cons_of_pos hc]
  exact readFraction_eq hwhole

/-- An operator is passed by as many characters as its spelling has. -/
theorem readOperator_eq (h : r.Stands front text) :
    r.readOperator = some ((cutOperator text).item r.line, r.pass (cutOperator text).span) := by
  unfold readOperator cutOperator
  simp only [h.remainder_eq, Option.bind_eq_bind, Option.bind_some, String.toList_ofList]
  cases hop : Kind.operatorAt? text with
  | none =>
    simp only [h.advance_eq]
    rfl
  | some found =>
    obtain ⟨kind, spelling⟩ := found
    rw [← operatorAt?_append hop] at h
    simp only [h.advance_length]
    rfl

/-- **A reader reports the cut, and passes its span.** -/
theorem read_eq {c : Char} (h : r.Stands front (c :: text)) :
    r.read c = some ((cut c text).item r.line, r.pass (cut c text).span) := by
  unfold read cut
  simp only [h.remainder_eq, Option.bind_eq_bind, Option.bind_some, String.toList_ofList, wordAt?]
  by_cases hquote : c = '"'
  · subst hquote
    simp only [if_true]
    exact readString_eq h
  · rw [if_neg hquote, if_neg hquote]
    by_cases hword : isWordStart c = true
    · rw [if_pos hword, if_pos hword]
      exact readWord_eq h
    · rw [if_neg hword, if_neg hword]
      by_cases hdigit : c.isDigit = true
      · simp only [if_pos hdigit]
        exact readNumber_eq h hdigit
      · simp only [if_neg hdigit]
        by_cases hpoint : c = '.'
        · simp only [if_pos hpoint, h.advance_eq]
          rfl
        · simp only [if_neg hpoint]
          exact readOperator_eq h

end

/-! ## One item -/

/-- Passes one blank or one comment; the inner answer is none where neither comes next. -/
def passTrivia (r : ByteScanner) (c : Char) : Option (Option ByteScanner) := do
  if isBlank c then
    return some (← advance { r with line := r.line + if c = '\n' then 1 else 0 } 1)
  else if ['/', '/'].isPrefixOf (← r.remainder).toList then
    return some (← r.passWhile (· != '\n'))
  else return none

/-- The scanner behind a gap, the newlines of which are counted. -/
def overGap (r : ByteScanner) (gap : List Char) : ByteScanner :=
  { r.pass gap with line := r.line + gap.count '\n' }

@[simp] theorem overGap_nil (r : ByteScanner) : r.overGap [] = r := rfl

@[simp] theorem overGap_overGap (r : ByteScanner) (gap more : List Char) :
    (r.overGap gap).overGap more = r.overGap (gap ++ more) := by
  simp only [overGap, pass, byteSize_append, List.count_append, Nat.add_assoc]

/-- A comment has no newline to count. -/
theorem overGap_comment (r : ByteScanner) (text : List Char) :
    r.overGap (text.takeWhile (· != '\n')) = r.pass (text.takeWhile (· != '\n')) := by
  have hcount : (text.takeWhile (· != '\n')).count '\n' = 0 :=
    List.count_eq_zero.mpr fun hmem => by simpa using List.all_eq_true.mp List.all_takeWhile _ hmem
  simp only [overGap, hcount]
  rfl

section

variable {r : ByteScanner} {front gap back text : List Char}

theorem Stands.overGap (h : r.Stands front (gap ++ back)) :
    (r.overGap gap).Stands (front ++ gap) back :=
  h.pass.with_line _

/-- **One turn of the loop**, against the trivia of the text: it passes a first part of the gap, and the
    rest of the gap is behind that; or there is no gap. -/
theorem passTrivia_cases {c : Char} (h : r.Stands front (c :: text)) :
    (∃ passed behind, passed ≠ [] ∧ c :: text = passed ++ behind ∧
        r.passTrivia c = some (some (r.overGap passed)) ∧
        splitTrivia false (c :: text) =
          (passed ++ (splitTrivia false behind).1, (splitTrivia false behind).2)) ∨
      r.passTrivia c = some none ∧ splitTrivia false (c :: text) = ([], c :: text) := by
  unfold passTrivia
  by_cases hblank : isBlank c = true
  · have hadvance := (h.with_line (r.line + if c = '\n' then 1 else 0)).advance_eq 1
    refine Or.inl ⟨[c], text, List.cons_ne_nil c [], rfl, ?_, by simp [splitTrivia, hblank]⟩
    simp [hblank, hadvance, ByteScanner.overGap, pass, List.count_singleton]
  · by_cases hcomment : c = '/' ∧ text.head? = some '/'
    · obtain ⟨rfl, hhead⟩ := hcomment
      obtain ⟨behind, rfl⟩ := List.head?_eq_some_iff.mp hhead
      have hpass := h.passWhile_eq (· != '\n')
      refine Or.inl ⟨('/' :: '/' :: behind).takeWhile (· != '\n'),
        ('/' :: '/' :: behind).dropWhile (· != '\n'), by simp,
        List.takeWhile_append_dropWhile.symm, ?_, ?_⟩
      · rw [overGap_comment, if_neg hblank, h.remainder_eq, hpass]
        simp
      · rw [← splitTrivia_true]
        simp [splitTrivia, hblank]
    · refine Or.inr ⟨?_, by simp [splitTrivia, hblank, hcomment]⟩
      have hmark : ¬['/', '/'].isPrefixOf (c :: text) = true := by
        intro hprefix
        obtain ⟨behind, hbehind⟩ := List.isPrefixOf_iff_prefix.mp hprefix
        cases hbehind
        exact hcomment ⟨rfl, rfl⟩
      simp only [if_neg hblank, h.remainder_eq, Option.bind_eq_bind, Option.bind_some,
        String.toList_ofList, if_neg hmark]
      rfl

/-- Passing a part of a gap brings the end of the text nearer. -/
theorem left_passTrivia_lt {behind : ByteScanner} {c : Char} (hpeek : r.peek = some (some c))
    (htrivia : r.passTrivia c = some (some behind)) : behind.left < r.left := by
  obtain ⟨front, text, hstands⟩ := exists_stands_of_peek hpeek
  rcases passTrivia_cases hstands with ⟨passed, rest, hne, happ, hpassed, -⟩ | ⟨hnone, -⟩
  · cases hpassed.symm.trans htrivia
    rw [happ] at hstands
    exact hstands.left_pass_lt hne
  · cases hnone.symm.trans htrivia

end

/-- The next item: a token, an error, or the end token once the text is used up. -/
def next (r : ByteScanner) : Option (Item × ByteScanner) :=
  match _ : r.peek with
  | none => none
  | some none => some (.token (Token.endOfFile r.line), r)
  | some (some c) =>
    match _ : r.passTrivia c with
    | none => none
    | some none => r.read c
    | some (some behind) => next behind
termination_by r.left
decreasing_by exact left_passTrivia_lt ‹_› ‹_›

/-- One turn of the loop. -/
theorem next_turn (r : ByteScanner) :
    r.next = (do
      match ← r.peek with
      | none => some (.token (Token.endOfFile r.line), r)
      | some c =>
        match ← r.passTrivia c with
        | none => r.read c
        | some behind => behind.next) := by
  rw [next]
  split
  · rename_i hpeek
    rw [hpeek]
    rfl
  · rename_i hpeek
    rw [hpeek]
    rfl
  · rename_i hpeek
    simp only [hpeek, Option.bind_eq_bind, Option.bind_some]
    split <;> rename_i htrivia <;> simp [htrivia]

/-- **The loop goes over the gap** in front of an item, however that comes apart into blanks and
    comments, and reads what starts behind it. -/
theorem next_overGap {r : ByteScanner} {front gap back rest : List Char} (h : r.Stands front back)
    (hsplit : splitTrivia false back = (gap, rest)) :
    r.next = rest.head?.elim
      (some (.token (Token.endOfFile (r.overGap gap).line), r.overGap gap)) (r.overGap gap).read := by
  induction hn : back.length using Nat.strongRecOn generalizing r front back gap with
  | _ n ih =>
    cases back with
    | nil =>
      cases hsplit
      rw [next_turn, h.peek_eq]
      rfl
    | cons c text =>
      have hpeek : r.peek = some (some c) := h.peek_eq
      rw [next_turn, hpeek]
      rcases passTrivia_cases h with ⟨passed, behind, hne, happ, hpassed, hrest⟩ | ⟨hnone, hrest⟩
      · have hshorter : behind.length < n := by
          have hlength := congrArg List.length happ
          have hpositive := List.length_pos_iff.mpr hne
          rw [List.length_append] at hlength
          omega
        rw [happ] at h
        cases hsplit.symm.trans hrest
        simp only [hpassed, Option.bind_eq_bind, Option.bind_some]
        rw [ih _ hshorter h.overGap rfl rfl, overGap_overGap]
      · cases hsplit.symm.trans hrest
        simp [hnone]

section

variable {r : ByteScanner} {front gap back behind : List Char}

/-- At the end of the text the end token is given. -/
theorem next_of_nil (h : r.Stands front back) (hsplit : splitTrivia false back = (gap, [])) :
    r.next = some (.token (Token.endOfFile (r.overGap gap).line), r.overGap gap) :=
  next_overGap h hsplit

/-- **An item takes a gap and a span**, and is the cut behind that gap. -/
theorem next_of_cons {c : Char} (h : r.Stands front back)
    (hsplit : splitTrivia false back = (gap, c :: behind)) :
    r.next = some ((cut c behind).item (r.overGap gap).line,
      (r.overGap gap).pass (cut c behind).span) := by
  have happ := append_of_splitTrivia hsplit
  rw [← happ] at h
  exact (next_overGap (happ ▸ h) hsplit).trans (read_eq h.overGap)

end

/-- **An item brings the end of the text nearer**, unless it is the end token. -/
theorem isEnd_or_left_lt {r behind : ByteScanner} {item : Item} (h : r.next = some (item, behind)) :
    item.isEnd = true ∨ behind.left < r.left := by
  cases hremainder : r.remainder with
  | none =>
    have hpeek : r.peek = none := by simp [peek, peekNth, hremainder]
    rw [next_turn, hpeek] at h
    cases h
  | some text =>
    obtain ⟨front, hstands⟩ := exists_stands hremainder
    cases hsplit : splitTrivia false text.toList with
    | mk gap rest =>
      cases rest with
      | nil =>
        cases (next_of_nil hstands hsplit).symm.trans h
        exact Or.inl rfl
      | cons c behind =>
        cases (next_of_cons hstands hsplit).symm.trans h
        have hne : gap ++ (cut c behind).span ≠ [] := by simp [cut_span_ne_nil]
        rw [← append_of_splitTrivia hsplit, ← cut_append, ← List.append_assoc] at hstands
        have hlt := hstands.left_pass_lt hne
        rw [← pass_pass] at hlt
        exact Or.inr hlt

/-! ## Item by item -/

/-- The next item unless the reading has ended; the end token ends it. -/
def next? (r : ByteScanner) : Option (Option Item × ByteScanner) :=
  if r.finished then some (none, r)
  else do
    let (item, behind) ← r.next
    return (some item, { behind with finished := item.isEnd })

/-- How many bytes an unended reading still has in front of it, and one for its end. -/
def unread (r : ByteScanner) : Nat := if r.finished then 0 else r.left + 1

theorem unread_next?_lt {r behind : ByteScanner} {item : Item}
    (h : r.next? = some (some item, behind)) : behind.unread < r.unread := by
  unfold next? at h
  split at h
  · cases h
  · rename_i hfinished
    obtain ⟨⟨given, after⟩, hnext, hgiven⟩ := Option.bind_eq_some_iff.mp h
    cases hgiven
    rcases isEnd_or_left_lt hnext with hend | hlt
    · simp [unread, hfinished, hend]
    · have hlt' : ({ after with finished := item.isEnd } : ByteScanner).left < r.left := hlt
      simp only [unread, hfinished]
      split
      · exact Nat.succ_pos _
      · exact Nat.succ_lt_succ hlt'

/-- The items up to the end token, and the scanner behind them. -/
def collect (r : ByteScanner) : Option (List Item × ByteScanner) :=
  match _ : r.next? with
  | none => none
  | some (none, behind) => some ([], behind)
  | some (some item, behind) => do
    let (items, last) ← collect behind
    return (item :: items, last)
termination_by r.unread
decreasing_by exact unread_next?_lt ‹_›

/-- One turn of the loop. -/
theorem collect_turn (r : ByteScanner) :
    r.collect = (do
      match ← r.next? with
      | (none, behind) => some ([], behind)
      | (some item, behind) =>
        let (items, last) ← behind.collect
        return (item :: items, last)) := by
  rw [collect]
  split <;> rename_i hnext <;> rw [hnext] <;> rfl

/-- All items of a text: tokens and errors in source order, the end token last. -/
def scan (source : String) : Option (List Item) := (ofText source).collect.map Prod.fst

end ByteScanner

end CalcFrontEnd
