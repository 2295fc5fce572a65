/-
  THE PARTITION OF A SOURCE TEXT — a scan loses, doubles and reorders nothing.

  1. **Specification** — `Trivia gap rest`, said without the scanner: blanks and comments, where a comment
     runs up to a newline or to the end of all text.  That end may lie behind the gap, so the relation
     is between a gap and what follows it.

  2. **Data** — a `Piece` is a gap, a span and the item that the span was read as.  `Dissects line text
     pieces` takes a text apart as the scanner does: a gap, a cut, and so on behind the cut, until the
     text is used up.  It is the one description of a scan from which everything else is read off.

  3. **Step and run** — `splitTrivia` gives trivia (`trivia_splitTrivia`), and `collect_dissects` says that
     the items of a scan are those of a dissection.

  4. **Result** — `exists_partition`: gaps and spans make up the source text, in order; the span of a
     token is its lexeme, and the span of an error is the text it carries, up to blanks at its end.
-/
import CalcFrontEnd.Lexis.Scanner
import CalcFrontEnd.Proofs.Lexis.Lexeme

namespace CalcFrontEnd

namespace Lexis

open Text

/-! ## Trivia -/

/-- `Trivia gap rest` — in front of `rest`, the gap is blanks and comments.  A comment holds no newline,
    and behind it comes a newline or nothing at all. -/
inductive Trivia : List Char → List Char → Prop where
  | nil {rest : List Char} : Trivia [] rest
  | blank {c : Char} {gap rest : List Char} (hc : isBlank c = true) (h : Trivia gap rest) :
      Trivia (c :: gap) rest
  | comment {body gap rest : List Char} (hbody : '\n' ∉ body)
      (hend : ∀ c, (gap ++ rest).head? = some c → c = '\n') (h : Trivia gap rest) :
      Trivia ('/' :: '/' :: (body ++ gap)) rest

/-- `CommentTail gap rest` — the same where the gap starts inside a comment. -/
def CommentTail (gap rest : List Char) : Prop :=
  ∃ body after, gap = body ++ after ∧ '\n' ∉ body ∧
    (∀ c, (after ++ rest).head? = some c → c = '\n') ∧ Trivia after rest

/-- One more character of a comment. -/
theorem CommentTail.cons {c : Char} {gap rest : List Char} (hc : c ≠ '\n')
    (h : CommentTail gap rest) : CommentTail (c :: gap) rest := by
  obtain ⟨body, after, rfl, hbody, hend, htrivia⟩ := h
  refine ⟨c :: body, after, rfl, ?_, hend, htrivia⟩
  intro hmem
  rcases List.mem_cons.mp hmem with heq | hmem
  · exact hc heq.symm
  · exact hbody hmem

/-- The newline that ends a comment is a blank. -/
theorem CommentTail.newline {gap rest : List Char} (h : Trivia gap rest) :
    CommentTail ('\n' :: gap) rest := by
  refine ⟨[], '\n' :: gap, rfl, List.not_mem_nil, ?_, .blank (by decide) h⟩
  intro c hc
  exact (Option.some.inj hc).symm

/-- Two slashes open a comment: the first in front of a tail that starts with the second. -/
theorem CommentTail.opened {gap rest : List Char} (h : CommentTail gap rest)
    (hhead : (gap ++ rest).head? = some '/') : Trivia ('/' :: gap) rest := by
  obtain ⟨body, after, rfl, hbody, hend, htrivia⟩ := h
  cases body with
  | nil => exact absurd (hend '/' hhead) (by decide)
  | cons c body =>
    obtain rfl : c = '/' := Option.some.inj hhead
    exact .comment (fun hmem => hbody (List.mem_cons_of_mem _ hmem)) hend htrivia

/-- **What is split off a text is trivia**, and the rest of a comment where it starts inside one. -/
theorem trivia_splitTrivia (text : List Char) :
    Trivia (splitTrivia false text).1 (splitTrivia false text).2 ∧
      CommentTail (splitTrivia true text).1 (splitTrivia true text).2 := by
  induction text with
  | nil => exact ⟨.nil, [], [], rfl, List.not_mem_nil, (fun _ h => nomatch h), .nil⟩
  | cons c text ih =>
    obtain ⟨houtside, hinside⟩ := ih
    constructor
    · unfold splitTrivia
      by_cases hblank : isBlank c = true
      · simp only [hblank, if_true, Bool.false_eq_true, if_false]
        exact .blank hblank houtside
      · by_cases hslash : c = '/' ∧ text.head? = some '/'
        · simp only [hslash, if_true, Bool.false_eq_true, if_false, and_self]
          refine hinside.opened ?_
          rw [splitTrivia_append]
          exact hslash.2
        · simp only [hblank, hslash, Bool.false_eq_true, if_false]
          exact .nil
    · unfold splitTrivia
      by_cases hc : c = '\n'
      · subst hc
        exact .newline houtside
      · have hstay : (c != '\n') = true := by simpa using hc
        simp only [hstay, if_true]
        exact hinside.cons hc

/-- Outside a comment, what was split off is trivia in front of what was left. -/
theorem trivia_of_splitTrivia {text gap rest : List Char}
    (h : splitTrivia false text = (gap, rest)) : Trivia gap rest := by
  have htrivia := (trivia_splitTrivia text).1
  rw [h] at htrivia
  exact htrivia

/-! ## What a cut reports -/

/-- `Spells item span` — the span is what the item says it is: the lexeme of a token; for an error, a
    span that starts with no blank, whose text it carries, without the blanks at its end if it is
    about a string or a number. -/
def Spells : Item → List Char → Prop
  | .token token, span => token.lexeme = String.ofList span
  | .error error, span =>
    (∃ c others, span = c :: others ∧ isBlank c = false) ∧
      error.text = String.ofList (if error.fault = .illegalCharacter then span else trimEnd span)

/-- A cut starts with the character it was made at. -/
theorem span_cut (c : Char) (text : List Char) : ∃ others, (cut c text).span = c :: others := by
  have happ := cut_append c text
  cases hspan : (cut c text).span with
  | nil => exact absurd hspan (cut_span_ne_nil c text)
  | cons d others =>
    rw [hspan] at happ
    exact ⟨others, by rw [List.head_eq_of_cons_eq happ]⟩

/-- A cut reports what it took. -/
theorem spells_cut {c : Char} (hc : isBlank c = false) (text : List Char) (line : Nat) :
    Spells ((cut c text).item line) (cut c text).span := by
  obtain ⟨others, hspan⟩ := span_cut c text
  unfold Cut.item
  cases (cut c text).reading with
  | token kind => rfl
  | fault fault =>
    refine ⟨⟨c, others, hspan, hc⟩, ?_⟩
    cases fault <;> rfl

/-- A token that a cut reports is written with a lexeme of its kind. -/
theorem isLexeme_of_item {c : Char} {text : List Char} {line : Nat} {token : Token}
    (h : (cut c text).item line = .token token) : IsLexeme token.kind token.lexeme.toList := by
  unfold Cut.item at h
  cases hreading : (cut c text).reading with
  | token kind =>
    rw [hreading] at h
    cases h
    rw [String.toList_ofList]
    exact isLexeme_cut hreading
  | fault fault =>
    rw [hreading] at h
    cases h

/-- A cut never reports the end token. -/
theorem isEnd_item_cut (c : Char) (text : List Char) (line : Nat) :
    ((cut c text).item line).isEnd = false := by
  cases hitem : (cut c text).item line with
  | token token => exact beq_eq_false_iff_ne.mpr (isLexeme_of_item hitem).kind_ne.1
  | error error => rfl

/-! ## Dissections -/

/-- A stretch of source text: trivia, and the characters that were read as an item. -/
structure Piece where
  gap : List Char
  span : List Char
  item : Item
deriving DecidableEq, Repr

/-- The characters of a piece. -/
def Piece.text (piece : Piece) : List Char := piece.gap ++ piece.span

/-- `Dissects line text pieces` — the pieces that the scanner takes a text apart into, if the text starts
    on the line. -/
inductive Dissects : Nat → List Char → List Piece → Prop where
  | finish {line : Nat} {text gap : List Char} (hsplit : splitTrivia false text = (gap, [])) :
      Dissects line text [⟨gap, [], .token (.endOfFile (line + gap.count '\n'))⟩]
  | read {line : Nat} {text gap behind : List Char} {c : Char} {pieces : List Piece}
      (hsplit : splitTrivia false text = (gap, c :: behind))
      (h : Dissects (line + gap.count '\n') (cut c behind).rest pieces) :
      Dissects line text
        (⟨gap, (cut c behind).span, (cut c behind).item (line + gap.count '\n')⟩ :: pieces)

namespace Dissects

variable {line : Nat} {text : List Char} {pieces : List Piece}

/-- Nothing is lost. -/
theorem flatMap_text (h : Dissects line text pieces) : pieces.flatMap Piece.text = text := by
  induction h with
  | @finish line text gap hsplit =>
    simpa [Piece.text] using append_of_splitTrivia hsplit
  | @read line text gap behind c pieces hsplit h ih =>
    rw [List.flatMap_cons, ih, Piece.text, List.append_assoc, cut_append,
      append_of_splitTrivia hsplit]

/-- Every gap is trivia in front of what follows it. -/
theorem trivia (h : Dissects line text pieces) {before after : List Piece} {piece : Piece}
    (hpieces : pieces = before ++ piece :: after) :
    Trivia piece.gap (piece.span ++ after.flatMap Piece.text) := by
  induction h generalizing before with
  | @finish line text gap hsplit =>
    cases before with
    | nil =>
      cases hpieces
      exact trivia_of_splitTrivia hsplit
    | cons first before => simp at hpieces
  | @read line text gap behind c pieces hsplit h ih =>
    cases before with
    | nil =>
      cases hpieces
      rw [h.flatMap_text, cut_append]
      exact trivia_of_splitTrivia hsplit
    | cons first before =>
      cases hpieces
      exact ih rfl

/-- Every span is what its item says. -/
theorem spells (h : Dissects line text pieces) : ∀ piece ∈ pieces, Spells piece.item piece.span := by
  induction h with
  | finish hsplit =>
    intro piece hmem
    rw [List.mem_singleton.mp hmem]
    rfl
  | @read line text gap behind c pieces hsplit h ih =>
    intro piece hmem
    rcases List.mem_cons.mp hmem with rfl | hmem
    · exact spells_cut (isBlank_of_splitTrivia hsplit) behind _
    · exact ih piece hmem

/-- The end token comes last, and in front of it every token is written with a lexeme of its kind. -/
theorem ends (h : Dissects line text pieces) :
    ∃ front last, pieces.map Piece.item = front ++ [.token (.endOfFile last)] ∧
      ∀ token, .token token ∈ front → IsLexeme token.kind token.lexeme.toList := by
  induction h with
  | finish hsplit => exact ⟨[], _, rfl, fun _ hmem => nomatch hmem⟩
  | @read line text gap behind c pieces hsplit h ih =>
    obtain ⟨front, last, hfront, hlexeme⟩ := ih
    refine ⟨_ :: front, last, by rw [List.map_cons, hfront, List.cons_append], ?_⟩
    intro token hmem
    rcases List.mem_cons.mp hmem with heq | hmem
    · exact isLexeme_of_item heq.symm
    · exact hlexeme token hmem

end Dissects

end Lexis

/-! ## The scan of a text -/

namespace Scanner

open Lexis

/-- At the end of the text the next item is the end token. -/
theorem next_of_nil {s : Scanner} {gap : List Char} (h : splitTrivia false s.rest = (gap, [])) :
    s.next = (.token (.endOfFile (s.line + gap.count '\n')),
      { s with rest := [], line := s.line + gap.count '\n' }) := by
  simp only [next, h]

/-- Before it, the next item is a cut's. -/
theorem next_of_cons {s : Scanner} {gap behind : List Char} {c : Char}
    (h : splitTrivia false s.rest = (gap, c :: behind)) :
    s.next = ((cut c behind).item (s.line + gap.count '\n'),
      { s with rest := (cut c behind).rest, line := s.line + gap.count '\n' }) := by
  simp only [next, h]

/-- **The items of a scan are those of a dissection of its text.** -/
theorem collect_dissects (s : Scanner) (h : s.finished = false) :
    ∃ pieces, Dissects s.line s.rest pieces ∧ pieces.map Piece.item = s.collect.1 := by
  fun_induction collect s with
  | case1 s hfinished =>
    rw [h] at hfinished
    cases hfinished
  | case2 s _ hend =>
    -- only at the end of the text is the next item the end token
    cases hsplit : splitTrivia false s.rest with
    | mk gap rest =>
      cases rest with
      | nil => exact ⟨_, .finish hsplit, by rw [next_of_nil hsplit]; rfl⟩
      | cons c behind =>
        rw [next_of_cons hsplit, isEnd_item_cut] at hend
        cases hend
  | case3 s _ hend items last hcollect ih =>
    cases hsplit : splitTrivia false s.rest with
    | mk gap rest =>
      cases rest with
      | nil =>
        rw [next_of_nil hsplit] at hend
        exact absurd rfl hend
      | cons c behind =>
        rw [next_of_cons hsplit] at ih
        obtain ⟨pieces, hpieces, hitems⟩ := ih h
        rw [next_of_cons hsplit] at hcollect
        refine ⟨_, .read hsplit hpieces, ?_⟩
        rw [List.map_cons, hitems, hcollect, next_of_cons hsplit]

/-- A source text is dissected from line one on. -/
theorem scan_dissects (source : String) :
    ∃ pieces, Dissects 1 source.toList pieces ∧ pieces.map Piece.item = scan source :=
  collect_dissects (ofText source) rfl

/-- The last item of a scan is the end token, and in front of it every token is written with a lexeme
    of its kind. -/
theorem scan_ends (source : String) :
    ∃ front last, scan source = front ++ [.token (.endOfFile last)] ∧
      ∀ token, .token token ∈ front → IsLexeme token.kind token.lexeme.toList := by
  obtain ⟨pieces, hpieces, hitems⟩ := scan_dissects source
  rw [← hitems]
  exact hpieces.ends

/-- **A scan loses, doubles and reorders nothing.**  The source text is made up of gaps and spans, one
    of each for every item in turn.  The gaps are trivia, the spans are what the items say they are,
    and the last item is the end token. -/
theorem exists_partition (source : String) :
    ∃ pieces : List Piece,
      pieces.map Piece.item = scan source ∧
      pieces.flatMap Piece.text = source.toList ∧
      (∀ before piece after, pieces = before ++ piece :: after →
        Trivia piece.gap (piece.span ++ after.flatMap Piece.text)) ∧
      (∀ piece ∈ pieces, Spells piece.item piece.span) ∧
      ∃ line, (scan source).getLast? = some (.token (.endOfFile line)) := by
  obtain ⟨pieces, hpieces, hitems⟩ := scan_dissects source
  obtain ⟨front, last, hfront, -⟩ := scan_ends source
  refine ⟨pieces, hitems, hpieces.flatMap_text, ?_, hpieces.spells, last, ?_⟩
  · intro before piece after hsplit
    exact hpieces.trivia hsplit
  · rw [hfront, List.getLast?_concat]

end Scanner

end CalcFrontEnd
