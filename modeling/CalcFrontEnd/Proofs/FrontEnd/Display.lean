/-
  DISPLAYED DIAGNOSTICS — they show the source line that they are about.

  1. **Two notions of line** — the scanner counts newlines as it passes them, and the display splits the
     source text at its line endings.  They agree on where a stretch of text stands as long as no
     newline has been skipped with an error (`Dissects.line_law`).

  2. **Two ways to lose text** — a line is shown without the blanks around it, and a `'\r'` before its
     newline is none of it.  A lexeme has no blank at either end (`IsLexeme.tight`), nor has the text of
     an error behind trimming, since every span starts with a character that is no blank
     (`Dissects.isBlank_head_span`).

  3. **The crux (`Dissects.shown`)** — so the span of each piece, without the blanks at its end, is seen in
     the trimmed line with the number of the newlines in front of it.

  4. **Result** — `check_shows_source`, for the lexical errors and for the token at which the recognizer
     stops.  Even where newlines have been skipped, a line is shown.
-/
import CalcFrontEnd.Proofs.FrontEnd.Agreement
import CalcFrontEnd.Proofs.Lexis.LineNumber
import CalcFrontEnd.Proofs.Lexis.Printing
import CalcFrontEnd.Proofs.Text.Trim

namespace CalcFrontEnd

open Lexis Text

/-! ## Lexemes have no blanks around them -/

namespace Lexis

theorem IsNumber.solid {text : List Char} (h : IsNumber text) : ∀ c ∈ text, isBlank c = false := by
  have hothers : ['.', 'e', 'E', '+', '-'].any isBlank = false := by decide
  intro c hc
  rcases h.mem_cases c hc with hdigit | hother
  · exact isBlank_of_isWordPart (isWordPart_of_isDigit hdigit)
  · exact Bool.eq_false_iff.mpr (List.any_eq_false.mp hothers c hother)

/-- **A lexeme has no blank at either end.** -/
theorem IsLexeme.tight {kind : Kind} {text : List Char} (h : IsLexeme kind text) : Tight text := by
  have table : ∀ kind ∈ Kind.operators, ∀ text ∈ kind.spelling?,
      text ≠ [] ∧ text.any isBlank = false := by decide +kernel
  rcases h.classes with ⟨-, body, rfl, -⟩ | ⟨-, hnumber⟩ | ⟨-, ⟨c, rest, rfl, hc, hrest⟩, -⟩ |
    ⟨hkind, hspelling⟩
  · refine ⟨⟨'"', rfl, by decide⟩, '"', ?_, by decide⟩
    rw [← List.cons_append, List.getLast?_concat]
  · have hne : text ≠ [] := by
      obtain ⟨whole, fraction, exponent, rfl, hwhole, -⟩ := hnumber
      simp [hwhole.1]
    exact tight_of_solid hne hnumber.solid
  · refine tight_of_solid (List.cons_ne_nil _ _) ?_
    intro d hd
    rcases List.mem_cons.mp hd with rfl | hd
    · exact isBlank_of_isWordPart (isWordPart_of_isWordStart hc)
    · exact isBlank_of_isWordPart (hrest d hd)
  · obtain ⟨hne, hsolid⟩ := table kind hkind text hspelling
    exact tight_of_solid hne fun c hc => Bool.eq_false_iff.mpr (List.any_eq_false.mp hsolid c hc)

/-! ## Pieces in their lines -/

namespace Dissects

variable {line : Nat} {text : List Char} {pieces before after : List Piece} {piece : Piece}

/-- No span starts with a blank. -/
theorem isBlank_head_span (h : Dissects line text pieces) :
    ∀ piece ∈ pieces, ∀ c, piece.span.head? = some c → isBlank c = false := by
  induction h with
  | finish hsplit =>
    intro piece hmem c hc
    rw [List.mem_singleton.mp hmem] at hc
    cases hc
  | @read line text gap behind first pieces hsplit h ih =>
    intro piece hmem c hc
    rcases List.mem_cons.mp hmem with rfl | hmem
    · obtain ⟨others, hspan⟩ := span_cut first behind
      have hhead : (cut first behind).span.head? = some c := hc
      rw [hspan] at hhead
      obtain rfl : first = c := Option.some.inj hhead
      exact isBlank_of_splitTrivia hsplit
    · exact ih piece hmem c hc

/-- Behind trimming, a span has no blank at either end. -/
theorem tight_span (h : Dissects line text pieces) (hpiece : piece ∈ pieces) (hne : piece.span ≠ []) :
    Tight (trimEnd piece.span) := by
  obtain ⟨c, rest, hspan⟩ := List.exists_cons_of_ne_nil hne
  have hhead : piece.span.head? = some c := by rw [hspan]; rfl
  exact tight_trimEnd hhead (h.isBlank_head_span piece hpiece c hhead)

/-- **A span is seen in the line that the newlines in front of it name.** -/
theorem shown (h : Dissects line text pieces) (hpieces : pieces = before ++ piece :: after)
    (hne : piece.span ≠ []) :
    ∃ shown, lineAt? text ((piece.textBefore before).count '\n' + 1) = some shown ∧
      trimEnd piece.span <:+: trim shown := by
  have hmem : piece ∈ pieces := hpieces ▸ List.mem_append_right _ List.mem_cons_self
  have htight := h.tight_span hmem hne
  have hnewline := newline_not_mem_trimEnd htight (h.newline_not_mem_dropLast piece hmem)
  obtain ⟨blanks, hsplit⟩ := trimEnd_append piece.span
  have htext : text = piece.textBefore before ++
      (trimEnd piece.span ++ (blanks ++ after.flatMap Piece.text)) := by
    rw [← h.flatMap_text, hpieces, ← List.append_assoc (trimEnd piece.span), ← hsplit]
    simp [Piece.textBefore, Piece.text]
  rw [htext]
  exact infix_trim_lineAt? _ hnewline htight _

/-- The line of an item can be shown, whatever newlines were skipped before it: its number is that of
    the line its span is on, or smaller. -/
theorem exists_lineAt? (h : Dissects 1 text pieces) (hpieces : pieces = before ++ piece :: after)
    (hne : piece.span ≠ []) : ∃ shown, lineAt? text piece.item.line = some shown := by
  have hmem : piece ∈ pieces := hpieces ▸ List.mem_append_right _ List.mem_cons_self
  have hfirst := h.le_line piece hmem
  have hlaw := h.line_law hpieces
  obtain ⟨shown, hshown, -⟩ := h.shown hpieces hne
  exact lineAt?_of_le hfirst (by omega) ⟨shown, hshown⟩

end Dissects

/-- What an error carries differs from its span by blanks at the end only. -/
theorem trimEnd_of_spells {error : LexicalError} {span : List Char} (h : Spells (.error error) span) :
    trimEnd error.text.toList = trimEnd span := by
  obtain ⟨⟨c, others, rfl, hc⟩, htext⟩ := h
  rw [htext, String.toList_ofList]
  split
  · rfl
  · have htight : Tight (trimEnd (c :: others)) := tight_trimEnd rfl hc
    obtain ⟨d, hd, hblank⟩ := htight.last
    exact trimEnd_of_last hd hblank

end Lexis

/-! ## Diagnostics -/

/-- `d.Shows source text` — set against the source, the diagnostic has a numbered line in which the text is
    seen. -/
def Diagnostic.Shows (d : Diagnostic) (source : String) (text : List Char) : Prop :=
  ∃ line, lineAt? source.toList d.line = some line ∧ text <:+: trim line ∧
    ∀ file, toString d.line ++ " | " ++ String.ofList (trim line) ∈ d.displayLines file source

theorem Diagnostic.shows_of_lineAt? {d : Diagnostic} {source : String} {text line : List Char}
    (hline : lineAt? source.toList d.line = some line) (htext : text <:+: trim line) :
    d.Shows source text := by
  refine ⟨line, hline, htext, ?_⟩
  intro file
  unfold displayLines
  rw [hline]
  simp

/-- A diagnostic on the line of an item shows the item's span, if no newline was skipped before it. -/
theorem shows_span {source : String} {pieces before after : List Piece} {piece : Piece}
    (h : Dissects 1 source.toList pieces) (hpieces : pieces = before ++ piece :: after)
    (hne : piece.span ≠ []) (hnone : '\n' ∉ before.flatMap Piece.skipped) {d : Diagnostic}
    (hd : d.line = piece.item.line) : d.Shows source (trimEnd piece.span) := by
  have hlaw := h.line_law hpieces
  rw [List.count_eq_zero.mpr hnone] at hlaw
  obtain ⟨shown, hshown, hseen⟩ := h.shown hpieces hne
  have hline : d.line = (piece.textBefore before).count '\n' + 1 := by omega
  exact Diagnostic.shows_of_lineAt? (hline ▸ hshown) hseen

/-- Where the recognizer stops at a token of a source text, that is a token of its scan, whose line the
    error cites. -/
theorem exists_failing_token {source : String} {failure : ParseError}
    (h : (check source).2.failure = some failure) :
    ∃ before token after, Scanner.scan source = before ++ .token token :: after ∧
      Outcome.stopIndex ((Scanner.scan source).filterMap Item.token?) =
        TokenStream.tokenCount before ∧ failure.line = token.line := by
  obtain ⟨hlt, -⟩ := (endsOnce_scan source).misfit_of_failure h
  obtain ⟨before, token, after, hscan, hcount⟩ := exists_token_at hlt
  refine ⟨before, token, after, hscan, hcount.symm, ?_⟩
  have htoken : ((Scanner.scan source).filterMap Item.token?)[Outcome.stopIndex
      ((Scanner.scan source).filterMap Item.token?)]? = some token := by
    rw [← hcount, hscan]
    exact getElem?_tokens before token after
  exact congrArg ParseError.line (failure_at_token h htoken)

/-- A lexical error has a line that can be shown, and shows its text there. -/
theorem shows_error {source : String} {pieces before after : List Piece} {piece : Piece}
    {error : LexicalError} (h : Dissects 1 source.toList pieces)
    (hpieces : pieces = before ++ piece :: after) (herror : piece.item = .error error) :
    (∃ line, lineAt? source.toList error.line = some line) ∧
      ('\n' ∉ before.flatMap Piece.skipped →
        error.diagnostic.Shows source (trimEnd error.text.toList)) := by
  have hspells := h.spells piece (hpieces ▸ List.mem_append_right _ List.mem_cons_self)
  rw [herror] at hspells
  have hne : piece.span ≠ [] := by
    obtain ⟨⟨c, others, hspan, -⟩, -⟩ := hspells
    rw [hspan]
    exact List.cons_ne_nil _ _
  have hline : error.line = piece.item.line := by
    rw [herror]
    rfl
  constructor
  · rw [hline]
    exact h.exists_lineAt? hpieces hne
  · intro hnone
    rw [trimEnd_of_spells hspells]
    exact shows_span h hpieces hne hnone hline

/-- A diagnostic on the line of a token shows the token's lexeme, if no newline was skipped before it. -/
theorem shows_token {source : String} {pieces before after : List Piece} {piece : Piece} {token : Token}
    (h : Dissects 1 source.toList pieces) (hpieces : pieces = before ++ piece :: after)
    (htoken : piece.item = .token token) (hkind : token.kind ≠ .endOfFile)
    (hnone : '\n' ∉ before.flatMap Piece.skipped) {d : Diagnostic} (hd : d.line = token.line) :
    d.Shows source token.lexeme.toList := by
  -- in front of the end token every span is a lexeme, from which nothing is trimmed off
  obtain ⟨hlexeme, hend | ⟨-, hclass, -⟩⟩ := h.maximal hpieces htoken
  · exact absurd hend.1 hkind
  · have htight := hclass.tight
    obtain ⟨c, hlast, hc⟩ := htight.last
    have hline : d.line = piece.item.line := by
      rw [hd, htoken]
      rfl
    have hshows := shows_span h hpieces htight.ne_nil hnone hline
    rw [trimEnd_of_last hlast hc] at hshows
    rw [hlexeme, String.toList_ofList]
    exact hshows

/-- **Displayed diagnostics show the right source line.**  For every lexical error of a source text a
    line is shown, and if no newline was skipped before it, its text without the blanks at the end is
    seen in that line.  And where the recognizer stops at a token other than the end token, with no
    newline skipped before it, the lexeme of the token is seen in the line shown for the failure. -/
theorem check_shows_source (source : String) :
    ∃ pieces, Dissects 1 source.toList pieces ∧ pieces.map Piece.item = Scanner.scan source ∧
      (check source).1 = pieces.filterMap (fun piece => piece.item.error?) ∧
      (∀ before piece after error, pieces = before ++ piece :: after → piece.item = .error error →
        (∃ line, lineAt? source.toList error.line = some line) ∧
        ('\n' ∉ before.flatMap Piece.skipped →
          error.diagnostic.Shows source (trimEnd error.text.toList))) ∧
      ∀ failure, (check source).2.failure = some failure →
        ∃ before piece after token, pieces = before ++ piece :: after ∧ piece.item = .token token ∧
          Outcome.stopIndex ((Scanner.scan source).filterMap Item.token?) =
            TokenStream.tokenCount (before.map Piece.item) ∧
          (token.kind ≠ .endOfFile → '\n' ∉ before.flatMap Piece.skipped →
            failure.diagnostic.Shows source token.lexeme.toList) := by
  obtain ⟨pieces, hpieces, hitems⟩ := Scanner.scan_dissects source
  have herrors : (check source).1 = pieces.filterMap (fun piece => piece.item.error?) := by
    show (Scanner.scan source).filterMap Item.error? = _
    rw [← hitems, List.filterMap_map]
    rfl
  refine ⟨pieces, hpieces, hitems, herrors, ?_, ?_⟩
  · intro before piece after error hsplit herror
    exact shows_error hpieces hsplit herror
  · intro failure hfailure
    obtain ⟨itemsBefore, token, itemsAfter, hscan, hstop, hline⟩ := exists_failing_token hfailure
    rw [hscan] at hitems
    obtain ⟨before, rest, hsplit, rfl, hrest⟩ := List.map_eq_append_iff.mp hitems
    obtain ⟨piece, after, rfl, htoken, rfl⟩ := List.map_eq_cons_iff.mp hrest
    refine ⟨before, piece, after, token, hsplit, htoken, hstop, ?_⟩
    intro hkind hnone
    exact shows_token hpieces hsplit htoken hkind hnone hline

end CalcFrontEnd
