/-
  THE BYTE CURSOR — a place in a source text, kept as a number of bytes.

  1. **Data** — a `ByteScanner` holds the whole source text, the byte offset it has come to, its line, and
     whether the scan has been ended.  The offset is a bare number: nothing in the data keeps it
     between two characters, or inside the text.

  2. **Slices** — `slice?` gives the text between two offsets.  It fails if one of them lies inside a
     character or outside the text, or if they stand the wrong way round.  Whatever is known of the
     text is known through a slice, so whatever looks at it may fail.

  3. **Moves** — `advance` goes on by characters, each as many bytes as it takes, and stops at the end of
     the text; `passWhile` goes on over the characters of a class.

  4. **Specification** — `r.Stands front back`: the cursor stands where the text comes apart into `front`
     and `back`.  In such a place nothing fails, and a move leads to such a place again: it is `pass`
     over the characters it takes (`advance_eq`, `passWhile_eq`).

  5. **Converse** — a cursor that sees something stands in such a place (`exists_stands`).  So a loop,
     which may be asked for at any offset whatever, either fails at once or comes to an end.
-/

namespace CalcFrontEnd

/-! ## Bytes and slices -/

/-- How many bytes a text takes. -/
def byteSize (text : List Char) : Nat := (String.ofList text).utf8ByteSize

/-- The text between two byte offsets.  It fails where they do not cut out whole characters. -/
def slice? (source : String) (start stop : Nat) : Option String :=
  if h : start ≤ stop ∧ (String.Pos.Raw.mk start).IsValid source ∧
      (String.Pos.Raw.mk stop).IsValid source then
    some (source.slice ⟨_, h.2.1⟩ ⟨_, h.2.2⟩ h.1).copy
  else none

@[simp] theorem byteSize_nil : byteSize [] = 0 := rfl

@[simp] theorem byteSize_append (front back : List Char) :
    byteSize (front ++ back) = byteSize front + byteSize back := by
  unfold byteSize
  rw [String.ofList_append, String.utf8ByteSize_append]

@[simp] theorem byteSize_cons (c : Char) (text : List Char) :
    byteSize (c :: text) = c.utf8Size + byteSize text := by
  unfold byteSize
  rw [String.ofList_cons, String.utf8ByteSize_append, String.utf8ByteSize_singleton]

theorem byteSize_toList (source : String) : byteSize source.toList = source.utf8ByteSize := by
  rw [byteSize, String.ofList_toList]

theorem byteSize_eq_zero_iff {text : List Char} : byteSize text = 0 ↔ text = [] := by
  cases text with
  | nil => simp
  | cons c text =>
    have := c.utf8Size_pos
    simp only [byteSize_cons, reduceCtorEq, iff_false]
    omega

/-- Where the characters of a text come apart there is a position in it. -/
theorem exists_pos {source : String} {front back : List Char} (h : source.toList = front ++ back) :
    ∃ pos : source.Pos, pos.offset = ⟨byteSize front⟩ ∧
      pos.Splits (String.ofList front) (String.ofList back) := by
  have hsource : source = String.ofList front ++ String.ofList back := by
    rw [← String.ofList_append, ← h, String.ofList_toList]
  have hvalid : (String.ofList front).rawEndPos.IsValid source :=
    String.Pos.Raw.isValid_iff_exists_append.mpr ⟨_, _, hsource, rfl⟩
  exact ⟨⟨_, hvalid⟩, rfl, hsource, rfl⟩

/-- **A stretch of a text is the slice between the offsets at its ends.** -/
theorem slice?_eq {source : String} {front stretch back : List Char}
    (h : source.toList = front ++ (stretch ++ back)) :
    slice? source (byteSize front) (byteSize (front ++ stretch)) = some (String.ofList stretch) := by
  obtain ⟨start, hoffset, hstart⟩ := exists_pos h
  rw [← List.append_assoc] at h
  obtain ⟨stop, hoffset', hstop⟩ := exists_pos h
  rw [String.ofList_append] at hstart hstop
  obtain ⟨hle, hslice⟩ := String.copy_slice_eq_iff_splits.mpr ⟨_, _, hstart, hstop⟩
  obtain ⟨_, hvalid⟩ := start
  obtain ⟨_, hvalid'⟩ := stop
  cases hoffset
  cases hoffset'
  unfold slice?
  rw [dif_pos ⟨hle, hvalid, hvalid'⟩, hslice]

/-- A slice lies between what is in front of it and what is behind it. -/
theorem exists_append_of_slice? {source text : String} {start stop : Nat}
    (h : slice? source start stop = some text) :
    ∃ front back, source.toList = front ++ (text.toList ++ back) ∧ start = byteSize front ∧
      stop = byteSize (front ++ text.toList) := by
  unfold slice? at h
  split at h
  · rename_i hvalid
    obtain ⟨front, back, hstart, hstop⟩ :=
      String.copy_slice_eq_iff_splits.mp ⟨hvalid.1, Option.some.inj h⟩
    refine ⟨front.toList, back.toList, ?_, ?_, ?_⟩
    · rw [hstart.eq_append, String.toList_append, String.toList_append]
    · rw [byteSize_toList]
      exact congrArg String.Pos.Raw.byteIdx hstart.offset_eq_rawEndPos
    · rw [← String.toList_append, byteSize_toList]
      exact congrArg String.Pos.Raw.byteIdx hstop.offset_eq_rawEndPos
  · cases h

/-- There is no slice that ends between the two bytes of a character. -/
example : slice? "é" 0 1 = none := by decide +kernel

/-! ## The state -/

/-- A scan in progress, with its cursor kept in bytes. -/
structure ByteScanner where
  /-- The whole source text. -/
  source : String
  /-- The byte offset in it of the character that comes next. -/
  offset : Nat
  /-- The current line, counted from one. -/
  line : Nat
  /-- Whether the item-by-item reading has given its end token. -/
  finished : Bool
deriving DecidableEq, Repr

namespace ByteScanner

/-- The scanner in front of a text. -/
def ofText (source : String) : ByteScanner := ⟨source, 0, 1, false⟩

/-- The text still to be read. -/
def remainder (r : ByteScanner) : Option String :=
  slice? r.source r.offset r.source.utf8ByteSize

/-- The text from an earlier offset up to the cursor. -/
def since (r : ByteScanner) (start : Nat) : Option String := slice? r.source start r.offset

/-- The character that comes `n` characters after the next one. -/
def peekNth (r : ByteScanner) (n : Nat) : Option (Option Char) := do
  return (← r.remainder).toList[n]?

/-- The next character. -/
def peek (r : ByteScanner) : Option (Option Char) := r.peekNth 0

/-- Whether the text is used up. -/
def atEnd (r : ByteScanner) : Bool := r.source.utf8ByteSize ≤ r.offset

/-- How many bytes are still to be read. -/
def left (r : ByteScanner) : Nat := r.source.utf8ByteSize - r.offset

/-- The scanner `n` characters further on, or at the end of the text; the line stays as it is. -/
def advance (r : ByteScanner) : Nat → Option ByteScanner
  | 0 => some r
  | n + 1 => do
    match ← r.peek with
    | none => some r
    | some c => advance { r with offset := r.offset + c.utf8Size } n

/-! ## Where the text comes apart -/

/-- `r.Stands front back` — the cursor of `r` stands behind `front` and in front of `back`, which make up
    the source text. -/
structure Stands (r : ByteScanner) (front back : List Char) : Prop where
  source : r.source.toList = front ++ back
  offset : r.offset = byteSize front

/-- The scanner behind some characters. -/
def pass (r : ByteScanner) (stretch : List Char) : ByteScanner :=
  { r with offset := r.offset + byteSize stretch }

@[simp] theorem pass_nil (r : ByteScanner) : r.pass [] = r := rfl

/-- One character is passed by its own width. -/
theorem pass_singleton (r : ByteScanner) (c : Char) :
    r.pass [c] = { r with offset := r.offset + c.utf8Size } := by
  simp [pass]

@[simp] theorem pass_pass (r : ByteScanner) (stretch more : List Char) :
    (r.pass stretch).pass more = r.pass (stretch ++ more) := by
  simp only [pass, byteSize_append, Nat.add_assoc]

@[simp] theorem line_pass (r : ByteScanner) (stretch : List Char) : (r.pass stretch).line = r.line :=
  rfl

theorem stands_ofText (source : String) : (ofText source).Stands [] source.toList := ⟨rfl, rfl⟩

namespace Stands

variable {r : ByteScanner} {front stretch back : List Char}

/-- Passing what comes next leads from one such place to another. -/
theorem pass (h : r.Stands front (stretch ++ back)) : (r.pass stretch).Stands (front ++ stretch) back :=
  ⟨by rw [List.append_assoc]; exact h.source, by rw [byteSize_append, ← h.offset]; rfl⟩

/-- The line has nothing to do with it. -/
theorem with_line (h : r.Stands front back) (line : Nat) :
    ({ r with line := line } : ByteScanner).Stands front back :=
  ⟨h.source, h.offset⟩

theorem size_eq (h : r.Stands front back) : r.source.utf8ByteSize = r.offset + byteSize back := by
  rw [← byteSize_toList, h.source, byteSize_append, h.offset]

/-- The cursor stands between two characters of the source text. -/
theorem isValid (h : r.Stands front back) : (String.Pos.Raw.mk r.offset).IsValid r.source := by
  obtain ⟨pos, hoffset, -⟩ := exists_pos h.source
  rw [h.offset, ← hoffset]
  exact pos.isValid

/-- **Nothing fails here**: what is left is the text behind the cursor. -/
theorem remainder_eq (h : r.Stands front back) : r.remainder = some (String.ofList back) := by
  have hsource : r.source.toList = front ++ (back ++ []) := by rw [List.append_nil, h.source]
  unfold remainder
  rw [← byteSize_toList, h.source, h.offset]
  exact slice?_eq hsource

theorem peekNth_eq (h : r.Stands front back) (n : Nat) : r.peekNth n = some back[n]? := by
  unfold peekNth
  rw [h.remainder_eq]
  simp

theorem peek_eq (h : r.Stands front back) : r.peek = some back.head? := by
  rw [peek, h.peekNth_eq, List.head?_eq_getElem?]

/-- The text that has been passed since is the slice up to the cursor. -/
theorem since_eq (h : r.Stands front (stretch ++ back)) :
    (r.pass stretch).since r.offset = some (String.ofList stretch) := by
  have hoffset := h.pass.offset
  unfold since
  rw [hoffset, h.offset]
  exact slice?_eq h.source

/-- All that has been passed is the slice from the start on. -/
theorem since_zero_eq (h : r.Stands front back) : r.since 0 = some (String.ofList front) := by
  unfold since
  rw [h.offset]
  have hsource : r.source.toList = [] ++ (front ++ back) := h.source
  exact slice?_eq hsource

theorem atEnd_iff (h : r.Stands front back) : r.atEnd = true ↔ back = [] := by
  have hsize := h.size_eq
  rw [atEnd, decide_eq_true_iff, ← byteSize_eq_zero_iff]
  omega

/-- **Advancing takes the next characters**, as many as there are. -/
theorem advance_eq (h : r.Stands front back) (n : Nat) : r.advance n = some (r.pass (back.take n)) := by
  induction n generalizing r front back with
  | zero => rfl
  | succ n ih =>
    unfold advance
    rw [h.peek_eq]
    cases back with
    | nil => rfl
    | cons c back =>
      have hstands : (r.pass [c]).Stands (front ++ [c]) back := h.pass
      show advance { r with offset := r.offset + c.utf8Size } n = _
      rw [← pass_singleton, ih hstands, pass_pass]
      rfl

/-- A stretch that comes next is passed by as many characters as it has. -/
theorem advance_length (h : r.Stands front (stretch ++ back)) :
    r.advance stretch.length = some (r.pass stretch) := by
  rw [h.advance_eq, List.take_left]

/-- So is a further one. -/
theorem advance_length_pass (more : List Char) (h : r.Stands front (stretch ++ (more ++ back))) :
    (r.pass stretch).advance more.length = some (r.pass (stretch ++ more)) := by
  rw [h.pass.advance_length, pass_pass]

/-- Passing something brings the end of the text nearer. -/
theorem left_pass_lt (h : r.Stands front (stretch ++ back)) (hne : stretch ≠ []) :
    (r.pass stretch).left < r.left := by
  have hsize := h.size_eq
  have hpositive : byteSize stretch ≠ 0 := mt byteSize_eq_zero_iff.mp hne
  rw [byteSize_append] at hsize
  show r.source.utf8ByteSize - (r.offset + byteSize stretch) < r.source.utf8ByteSize - r.offset
  omega

end Stands

/-- **A cursor that sees the text stands in such a place.** -/
theorem exists_stands {r : ByteScanner} {text : String} (h : r.remainder = some text) :
    ∃ front, r.Stands front text.toList := by
  obtain ⟨front, back, hsource, hstart, hstop⟩ := exists_append_of_slice? h
  -- the slice goes up to the end, so there is nothing behind it
  have hback : back = [] := by
    rw [← byteSize_toList, hsource] at hstop
    simp only [byteSize_append] at hstop
    exact byteSize_eq_zero_iff.mp (by omega)
  rw [hback, List.append_nil] at hsource
  exact ⟨front, hsource, hstart⟩

theorem exists_stands_of_peek {r : ByteScanner} {c : Char} (h : r.peek = some (some c)) :
    ∃ front back, r.Stands front (c :: back) := by
  cases hremainder : r.remainder with
  | none => simp [peek, peekNth, hremainder] at h
  | some text =>
    obtain ⟨front, hstands⟩ := exists_stands hremainder
    rw [hstands.peek_eq, Option.some.injEq] at h
    obtain ⟨back, hback⟩ := List.head?_eq_some_iff.mp h
    exact ⟨front, back, hback ▸ hstands⟩

/-- Advancing over a character brings the end of the text nearer. -/
theorem left_advance_lt {r behind : ByteScanner} {c : Char} (hpeek : r.peek = some (some c))
    (hadvance : r.advance 1 = some behind) : behind.left < r.left := by
  obtain ⟨front, back, hstands⟩ := exists_stands_of_peek hpeek
  cases (hstands.advance_eq 1).symm.trans hadvance
  have hnext : r.Stands front ([c] ++ back) := hstands
  exact hnext.left_pass_lt (List.cons_ne_nil c [])

/-! ## The loop over a class of characters -/

/-- The scanner behind the characters of a class that come next. -/
def passWhile (p : Char → Bool) (r : ByteScanner) : Option ByteScanner :=
  match _ : r.peek with
  | none => none
  | some none => some r
  | some (some c) =>
    if p c then
      match _ : r.advance 1 with
      | none => none
      | some behind => passWhile p behind
    else some r
termination_by r.left
decreasing_by exact left_advance_lt ‹_› ‹_›

/-- One turn of the loop. -/
theorem passWhile_turn (p : Char → Bool) (r : ByteScanner) :
    r.passWhile p = (do
      match ← r.peek with
      | none => some r
      | some c => if p c then (← r.advance 1).passWhile p else some r) := by
  rw [passWhile]
  split
  · rename_i hpeek
    rw [hpeek]
    rfl
  · rename_i hpeek
    rw [hpeek]
    rfl
  · rename_i hpeek
    simp only [hpeek, Option.bind_eq_bind, Option.bind_some]
    split
    · split <;> rename_i hadvance <;> simp [hadvance]
    · rfl

/-- **The loop takes the characters of its class**, up to the first other one. -/
theorem Stands.passWhile_eq {r : ByteScanner} {front back : List Char} (h : r.Stands front back)
    (p : Char → Bool) : r.passWhile p = some (r.pass (back.takeWhile p)) := by
  induction back generalizing r front with
  | nil =>
    rw [passWhile_turn, h.peek_eq]
    rfl
  | cons c back ih =>
    have hstands : (r.pass [c]).Stands (front ++ [c]) back := h.pass
    have hadvance : r.advance 1 = some (r.pass [c]) := h.advance_eq 1
    rw [passWhile_turn, h.peek_eq]
    by_cases hp : p c = true
    · simp [hp, hadvance, ih hstands]
    · simp [hp]

end ByteScanner

end CalcFrontEnd
