/-
  CARRIAGE RETURNS — a text without errors is scanned alike with either sort of line ending.

  1. **Specification** — `withReturns text` has a carriage return in front of each newline.

  2. **Trivia** — the two texts are split alike (`splitTrivia_withReturns`): a carriage return is a blank,
     inside a comment it is part of the comment, and where a comment may open it stands for the newline
     behind it, since neither is a slash.

  3. **Cuts** — the cut of a token takes the same characters (`cut_withReturns`): a lexeme holds no newline,
     and if one comes right behind it, a carriage return does not prolong it either.  This is where the
     scan has to be without errors.  A faulty number, say, would take the carriage return and leave the
     newline, where it took the newline before.

  4. **Result** — `scan_withReturns`, by induction over the dissection.
-/
import CalcFrontEnd.Proofs.Lexis.Printing

namespace CalcFrontEnd

namespace Lexis

open Text

/-- The text with a carriage return in front of each newline. -/
def withReturns (text : List Char) : List Char :=
  text.flatMap fun c => if c = '\n' then ['\r', '\n'] else [c]

/-! ## Small facts -/

theorem withReturns_newline (text : List Char) :
    withReturns ('\n' :: text) = '\r' :: '\n' :: withReturns text := rfl

theorem withReturns_cons {c : Char} (h : c ≠ '\n') (text : List Char) :
    withReturns (c :: text) = c :: withReturns text := by
  unfold withReturns
  rw [List.flatMap_cons, if_neg h, List.singleton_append]

theorem withReturns_append (front back : List Char) :
    withReturns (front ++ back) = withReturns front ++ withReturns back :=
  List.flatMap_append

/-- Without a newline nothing is put in. -/
theorem withReturns_of_newline_not_mem {text : List Char} (h : '\n' ∉ text) :
    withReturns text = text := by
  induction text with
  | nil => rfl
  | cons c text ih =>
    obtain ⟨hc, htext⟩ := not_or.mp fun hmem => h (List.mem_cons.mpr hmem)
    rw [withReturns_cons (Ne.symm hc), ih htext]

/-- No newline comes in or goes. -/
theorem count_newline_withReturns (text : List Char) :
    (withReturns text).count '\n' = text.count '\n' := by
  induction text with
  | nil => rfl
  | cons c text ih =>
    by_cases hc : c = '\n'
    · subst hc
      rw [withReturns_newline, List.count_cons_of_ne (by decide), List.count_cons_self,
        List.count_cons_self, ih]
    · rw [withReturns_cons hc, List.count_cons_of_ne hc, List.count_cons_of_ne hc, ih]

/-- The first character stays, or a carriage return is put in front of it. -/
theorem head?_withReturns {text : List Char} {c : Char} (h : (withReturns text).head? = some c) :
    text.head? = some c ∨ c = '\r' := by
  cases text with
  | nil => cases h
  | cons d text =>
    by_cases hd : d = '\n'
    · subst hd
      exact Or.inr (Option.some.inj h).symm
    · rw [withReturns_cons hd] at h
      exact Or.inl h

/-! ## Trivia -/

/-- A slash comes next in both texts or in neither. -/
theorem head?_withReturns_slash (text : List Char) :
    (withReturns text).head? = some '/' ↔ text.head? = some '/' := by
  constructor
  · intro h
    exact (head?_withReturns h).resolve_right (by decide)
  · intro h
    obtain ⟨behind, rfl⟩ := List.head?_eq_some_iff.mp h
    rfl

/-- A newline is a blank, and the end of a comment. -/
theorem splitTrivia_newline (inComment : Bool) (text : List Char) :
    splitTrivia inComment ('\n' :: text) =
      ('\n' :: (splitTrivia false text).1, (splitTrivia false text).2) := by
  cases inComment <;> rfl

/-- A carriage return is a blank, or part of a comment. -/
theorem splitTrivia_return (inComment : Bool) (text : List Char) :
    splitTrivia inComment ('\r' :: text) =
      ('\r' :: (splitTrivia inComment text).1, (splitTrivia inComment text).2) := by
  cases inComment <;> rfl

/-- **Trivia are split off alike.** -/
theorem splitTrivia_withReturns (inComment : Bool) (text : List Char) :
    splitTrivia inComment (withReturns text) =
      (withReturns (splitTrivia inComment text).1, withReturns (splitTrivia inComment text).2) := by
  induction text generalizing inComment with
  | nil => rfl
  | cons c text ih =>
    by_cases hc : c = '\n'
    · -- the carriage return is passed over, as a blank or in the comment that the newline ends
      subst hc
      rw [withReturns_newline, splitTrivia_return, splitTrivia_newline, splitTrivia_newline, ih,
        withReturns_newline]
    · rw [withReturns_cons hc]
      unfold splitTrivia
      cases inComment with
      | true =>
        simp only [if_true, ih, withReturns_cons hc]
      | false =>
        simp only [Bool.false_eq_true, if_false, head?_withReturns_slash, ih]
        split
        · rw [withReturns_cons hc]
        · split
          · rw [withReturns_cons hc]
          · rw [withReturns_cons hc]
            rfl

/-! ## Cuts -/

/-- **The cut of a token takes the same characters.** -/
theorem cut_withReturns {c : Char} {behind : List Char} {kind : Kind}
    (h : (cut c behind).reading = .token kind) (hcomment : ¬['/', '/'] <+: c :: behind) :
    cut c (withReturns behind) =
      ⟨.token kind, (cut c behind).span, withReturns (cut c behind).rest⟩ := by
  have hlexeme := isLexeme_cut h
  have hnext : ∀ next, (withReturns (cut c behind).rest).head? = some next →
      EndsBefore kind (cut c behind).span next := by
    intro next hhead
    rcases head?_withReturns hhead with hsame | rfl
    · exact endsBefore_cut h hsame hcomment
    · exact endsBefore_of_isBlank (by decide) _ _
  obtain ⟨d, others, hspan, -, -, hcut⟩ := readsAs hlexeme hnext
  -- the text behind the first character is the rest of the lexeme and what the cut left
  have happ := cut_append c behind
  rw [hspan, List.cons_append] at happ
  obtain ⟨rfl, hbehind⟩ := List.cons.inj happ
  have hnewline : '\n' ∉ others := by
    intro hmem
    have hnone := hlexeme.newline_not_mem
    rw [hspan] at hnone
    exact hnone (List.mem_cons_of_mem _ hmem)
  have hreturns : withReturns behind = others ++ withReturns (cut d behind).rest := by
    rw [← withReturns_of_newline_not_mem hnewline, ← withReturns_append, hbehind]
  rw [hreturns]
  exact hcut

/-! ## Dissections -/

/-- The piece with carriage returns in its gap. -/
def Piece.withReturns (piece : Piece) : Piece := { piece with gap := Lexis.withReturns piece.gap }

/-- An item that is no error was read as a token. -/
theorem Cut.reading_of_item {cut : Cut} {line : Nat} (h : (cut.item line).error? = none) :
    ∃ kind, cut.reading = .token kind := by
  unfold Cut.item at h
  cases hreading : cut.reading with
  | token kind => exact ⟨kind, rfl⟩
  | fault fault =>
    rw [hreading] at h
    cases h

/-- **A dissection without errors stays one**, with the same spans and items. -/
theorem Dissects.withReturns {line : Nat} {text : List Char} {pieces : List Piece}
    (h : Dissects line text pieces) (hclean : ∀ piece ∈ pieces, piece.item.error? = none) :
    Dissects line (Lexis.withReturns text) (pieces.map Piece.withReturns) := by
  induction h with
  | @finish line text gap hsplit =>
    have hsplit' : splitTrivia false (Lexis.withReturns text) = (Lexis.withReturns gap, []) := by
      rw [splitTrivia_withReturns, hsplit]
      rfl
    have hfinish : Dissects line (Lexis.withReturns text) _ := .finish hsplit'
    rw [count_newline_withReturns] at hfinish
    exact hfinish
  | @read line text gap behind c pieces hsplit _ ih =>
    obtain ⟨hitem, hclean⟩ := List.forall_mem_cons.mp hclean
    obtain ⟨kind, hreading⟩ := Cut.reading_of_item hitem
    have hsplit' : splitTrivia false (Lexis.withReturns text) =
        (Lexis.withReturns gap, c :: Lexis.withReturns behind) := by
      rw [splitTrivia_withReturns, hsplit, withReturns_cons (ne_newline_of_splitTrivia hsplit)]
    have hcut := cut_withReturns hreading (not_comment_of_splitTrivia hsplit)
    have hrest := ih hclean
    rw [← count_newline_withReturns gap] at hrest
    have hread := Dissects.read hsplit' (by rw [hcut]; exact hrest)
    rw [hcut, count_newline_withReturns] at hread
    have hsame : (cut c behind).item (line + gap.count '\n') =
        Cut.item ⟨.token kind, (cut c behind).span, Lexis.withReturns (cut c behind).rest⟩
          (line + gap.count '\n') := by
      unfold Cut.item
      rw [hreading]
    rw [← hsame] at hread
    exact hread

end Lexis

namespace Scanner

open Lexis

/-- **Line endings do not matter to a text without errors.**  If the scan of a text has no error, then
    with a carriage return in front of each newline the text has the same scan, with no error either. -/
theorem scan_withReturns {source : String} (h : (Item.separate (scan source)).2 = []) :
    scan (String.ofList (withReturns source.toList)) = scan source ∧
      (Item.separate (scan (String.ofList (withReturns source.toList)))).2 = [] := by
  obtain ⟨pieces, hpieces, hitems⟩ := scan_dissects source
  have hclean : ∀ piece ∈ pieces, piece.item.error? = none := by
    intro piece hmem
    have hitem : piece.item ∈ scan source := hitems ▸ List.mem_map_of_mem hmem
    exact List.filterMap_eq_nil_iff.mp h _ hitem
  have hsame : scan (String.ofList (withReturns source.toList)) = scan source := by
    have hreturns := hpieces.withReturns hclean
    rw [← String.toList_ofList (l := withReturns source.toList)] at hreturns
    rw [scan_of_dissects hreturns, ← hitems, List.map_map]
    rfl
  exact ⟨hsame, by rw [hsame]; exact h⟩

/-- A comment, a name, a number and an operator stand at line ends, and one line ends in a carriage
    return already. -/
theorem scan_withReturns_brokenAssignment :
    (Item.separate (scan "x // a\n:=\n1.5\r\n/\n2;")).2 = [] ∧
      scan (String.ofList (withReturns "x // a\n:=\n1.5\r\n/\n2;".toList)) =
        [.token ⟨.identifier, "x", 1⟩, .token ⟨.assign, ":=", 2⟩, .token ⟨.number, "1.5", 3⟩,
          .token ⟨.divide, "/", 4⟩, .token ⟨.number, "2", 5⟩, .token ⟨.semicolon, ";", 5⟩,
          .token (.endOfFile 5)] := by
  have hclean : (Item.separate (scan "x // a\n:=\n1.5\r\n/\n2;")).2 = [] := by decide +kernel
  refine ⟨hclean, (scan_withReturns hclean).1.trans ?_⟩
  decide +kernel

/-- With an error it may matter: what a faulty number takes behind its point is a newline in one text and
    a carriage return in the other, so the name moves down by a line. -/
example : scan "1.\nx" = [.error ⟨.invalidNumber, "1.", 1⟩, .token ⟨.identifier, "x", 1⟩,
      .token (.endOfFile 1)] ∧
    scan (String.ofList (withReturns "1.\nx".toList)) =
      [.error ⟨.invalidNumber, "1.", 1⟩, .token ⟨.identifier, "x", 2⟩, .token (.endOfFile 2)] := by
  decide +kernel

end Scanner

end CalcFrontEnd
