/-
  MAXIMAL MUNCH — a token is of its kind's class, and it takes all it can.

  1. **Specification** — `EndsBefore kind text next`, said without the scanner: the character `next` does
     not prolong the lexeme `text`.  A word ends before what is no part of a word; a number before what
     is no digit, and it does not leave a point or an exponent behind that it could have had; an
     operator does not leave the second half of a longer one behind, or of a comment's two slashes.  A
     string literal has its own end.

  2. **One cut** — `endsBefore_cut`: a token that is cut off a text ends before the first character of
     the rest.  Only the slash needs to know what the trivia have settled, that no comment starts at it
     (`not_comment_of_splitTrivia`).

  3. **Result** — `scan_maximal`: so it is with every token of a scan, also where scanning resumes in
     the middle of a word or a number behind a faulty span.
-/
import CalcFrontEnd.Proofs.Lexis.LineEnd

namespace CalcFrontEnd

namespace Lexis

open Text

/-! ## Where a lexeme ends -/

/-- The two-character operators, and what opens a comment. -/
def doubles : List (List Char) :=
  [[':', '='], ['*', '*'], ['<', '='], ['>', '='], ['!', '='], ['/', '/']]

/-- `HasExponent text` — the number has an exponent. -/
def HasExponent (text : List Char) : Prop := 'e' ∈ text ∨ 'E' ∈ text

/-- `EndsBefore kind text next` — the lexeme is not prolonged by the character behind it. -/
def EndsBefore (kind : Kind) (text : List Char) (next : Char) : Prop :=
  match kind with
  | .string => True
  | .number =>
    next.isDigit = false ∧ ('.' ∉ text → ¬HasExponent text → next ≠ '.') ∧
      (¬HasExponent text → next ≠ 'e' ∧ next ≠ 'E')
  | kind => if kind ∈ Kind.operators then text ++ [next] ∉ doubles else isWordPart next = false

/-- The kinds that words are read as. -/
def wordKinds : List Kind := .identifier :: Kind.reserved

theorem endsBefore_word_iff {kind : Kind} (h : kind ∈ wordKinds) {text : List Char} {next : Char} :
    EndsBefore kind text next ↔ isWordPart next = false := by
  revert h
  cases kind <;> first | exact fun _ => Iff.rfl | exact fun h => absurd h (by decide)

theorem endsBefore_operator_iff {kind : Kind} (h : kind ∈ Kind.operators) {text : List Char}
    {next : Char} : EndsBefore kind text next ↔ text ++ [next] ∉ doubles := by
  revert h
  cases kind <;> first | exact fun _ => Iff.rfl | exact fun h => absurd h (by decide)

theorem ofWord_mem_wordKinds (word : List Char) : Kind.ofWord word ∈ wordKinds := by
  unfold Kind.ofWord
  cases hfind : Kind.reserved.find? fun kind => kind.spelling? == some word with
  | none => exact List.mem_cons_self
  | some kind => exact List.mem_cons_of_mem _ (List.mem_of_find?_eq_some hfind)

/-! ## A cut ends where nothing prolongs it -/

/-- What stands behind a run of characters does not belong to it. -/
theorem head?_dropWhile {p : Char → Bool} {text : List Char} {next : Char}
    (h : (text.dropWhile p).head? = some next) : p next = false := by
  have hstop := List.head?_dropWhile_not p text
  rw [h] at hstop
  exact hstop

/-- Behind the mantissa of a number come no digits, nor an exponent that was left out. -/
theorem cutExponent_next {mantissa text : List Char} {kind : Kind} {next : Char}
    (htext : ∀ c, text.head? = some c → c.isDigit = false)
    (h : (cutExponent mantissa text).reading = .token kind)
    (hnext : (cutExponent mantissa text).rest.head? = some next) :
    next.isDigit = false ∧
      (HasExponent (cutExponent mantissa text).span ∨
        text.head? = some next ∧ next ≠ 'e' ∧ next ≠ 'E') := by
  unfold cutExponent at h hnext ⊢
  split at h
  · cases hnext
  · rename_i mark afterMark
    split at h
    · rename_i hmark
      simp only [if_pos hmark] at hnext ⊢
      simp only at h
      split at h
      · cases h
      · rename_i c rest heq
        split at h
        · rename_i hc
          simp only [heq, if_pos hc] at hnext ⊢
          refine ⟨head?_dropWhile hnext, Or.inl ?_⟩
          rcases hmark with rfl | rfl
          · exact Or.inl (by simp)
          · exact Or.inr (by simp)
        · split at h <;> cases h
    · rename_i hmark
      simp only [if_neg hmark] at hnext ⊢
      cases hnext
      exact ⟨htext next rfl, Or.inr ⟨rfl, not_or.mp hmark⟩⟩

/-- What was read in front of an exponent is part of the number. -/
theorem subset_cutExponent (mantissa text : List Char) :
    mantissa ⊆ (cutExponent mantissa text).span := by
  unfold cutExponent
  split
  · exact List.Subset.refl _
  · split
    · simp only
      split
      · exact List.subset_append_left _ _
      · split
        · rw [List.append_assoc]
          exact List.subset_append_left _ _
        · split
          · rw [List.append_assoc]
            exact List.subset_append_left _ _
          · exact List.subset_append_left _ _
    · exact List.Subset.refl _

theorem cutFraction_next {whole text : List Char} {kind : Kind} {next : Char}
    (htext : ∀ c, text.head? = some c → c.isDigit = false)
    (h : (cutFraction whole text).reading = .token kind)
    (hnext : (cutFraction whole text).rest.head? = some next) :
    EndsBefore .number (cutFraction whole text).span next := by
  cases text with
  | nil => cases hnext
  | cons c afterPoint =>
    by_cases hpoint : c = '.'
    · subst hpoint
      cases afterPoint with
      | nil => cases h
      | cons c rest =>
        by_cases hc : c.isDigit = true
        · -- a fraction: the point is in the number, and an exponent may follow
          simp only [cutFraction, if_pos hc] at h hnext ⊢
          obtain ⟨hdigit, hexponent⟩ := cutExponent_next (fun _ => head?_dropWhile) h hnext
          have hmem := subset_cutExponent (whole ++ '.' :: c :: rest.takeWhile Char.isDigit)
            (rest.dropWhile Char.isDigit) (a := '.') (by simp)
          exact ⟨hdigit, fun hno => absurd hmem hno, fun hno => (hexponent.resolve_left hno).2⟩
        · simp only [cutFraction, if_neg hc] at h
          cases h
    · rw [cutFraction_of_ne hpoint] at h hnext ⊢
      obtain ⟨hdigit, hexponent⟩ := cutExponent_next htext h hnext
      refine ⟨hdigit, fun _ hno => ?_, fun hno => (hexponent.resolve_left hno).2⟩
      obtain rfl : c = next := Option.some.inj (hexponent.resolve_left hno).1
      exact hpoint

/-- Where two characters make a longer operator, that one is found. -/
theorem operatorAt?_double {c d : Char} (h : [c, d] ∈ doubles) (hcomment : ¬(c = '/' ∧ d = '/'))
    (text : List Char) : ∃ kind, Kind.operatorAt? (c :: d :: text) = some (kind, [c, d]) := by
  simp only [doubles, List.mem_cons, List.cons.injEq, List.not_mem_nil, and_true, or_false] at h
  rcases h with ⟨rfl, rfl⟩ | ⟨rfl, rfl⟩ | ⟨rfl, rfl⟩ | ⟨rfl, rfl⟩ | ⟨rfl, rfl⟩ | hslashes
  · exact ⟨.assign, rfl⟩
  · exact ⟨.raise, rfl⟩
  · exact ⟨.lessEqual, rfl⟩
  · exact ⟨.greaterEqual, rfl⟩
  · exact ⟨.notEqual, rfl⟩
  · exact absurd hslashes hcomment

theorem operatorAt?_mem {text : List Char} {kind : Kind} {spelling : List Char}
    (h : Kind.operatorAt? text = some (kind, spelling)) : kind ∈ Kind.operators := by
  obtain ⟨other, hmem, hother⟩ := List.exists_of_findSome?_eq_some h
  split at hother
  · split at hother
    · cases hother
      exact hmem
    · cases hother
  · cases hother

/-- An operator does not leave the second half of a longer one behind. -/
theorem operatorAt?_next {text behind : List Char} {kind : Kind} {spelling : List Char} {next : Char}
    (h : Kind.operatorAt? text = some (kind, spelling)) (htext : text = spelling ++ next :: behind)
    (hcomment : ¬['/', '/'] <+: text) : spelling ++ [next] ∉ doubles := by
  intro hmem
  have htwo : ∀ double ∈ doubles, double.length = 2 := by decide
  have hlength := htwo _ hmem
  rw [List.length_append] at hlength
  obtain ⟨c, rfl⟩ := List.length_eq_one_iff.mp (Nat.succ.inj hlength)
  subst htext
  have hslashes : ¬(c = '/' ∧ next = '/') := by
    rintro ⟨rfl, rfl⟩
    exact hcomment ⟨behind, rfl⟩
  obtain ⟨other, hother⟩ := operatorAt?_double hmem hslashes behind
  rw [List.singleton_append, hother] at h
  cases h

theorem cutOperator_next {text : List Char} {kind : Kind} {next : Char}
    (h : (cutOperator text).reading = .token kind)
    (hnext : (cutOperator text).rest.head? = some next) (hcomment : ¬['/', '/'] <+: text) :
    EndsBefore kind (cutOperator text).span next := by
  obtain ⟨behind, hbehind⟩ := List.head?_eq_some_iff.mp hnext
  have happ := cutOperator_append text
  rw [hbehind] at happ
  cases hoperator : Kind.operatorAt? text with
  | none =>
    simp only [cutOperator, hoperator] at h
    cases h
  | some operator =>
    obtain ⟨other, spelling⟩ := operator
    simp only [cutOperator, hoperator] at h happ ⊢
    cases h
    exact (endsBefore_operator_iff (operatorAt?_mem hoperator)).mpr
      (operatorAt?_next hoperator happ.symm hcomment)

/-- A string literal is read as one. -/
theorem cutString_kind {text : List Char} {kind : Kind}
    (h : (cutString text).reading = .token kind) : kind = .string := by
  unfold cutString at h
  split at h
  · cases h
  · split at h
    · cases h
      rfl
    · cases h

/-- **A token ends before the first character that is left**, where no comment starts. -/
theorem endsBefore_cut {c : Char} {text : List Char} {kind : Kind} {next : Char}
    (h : (cut c text).reading = .token kind) (hnext : (cut c text).rest.head? = some next)
    (hcomment : ¬['/', '/'] <+: c :: text) : EndsBefore kind (cut c text).span next := by
  unfold cut at h hnext ⊢
  split at h
  · rw [cutString_kind h]
    trivial
  · rename_i hquote
    rw [if_neg hquote] at hnext ⊢
    split at h
    · rename_i hword
      rw [if_pos hword] at hnext ⊢
      cases h
      exact (endsBefore_word_iff (ofWord_mem_wordKinds _)).mpr (head?_dropWhile hnext)
    · rename_i hword
      rw [if_neg hword] at hnext ⊢
      split at h
      · rename_i hdigit
        rw [if_pos hdigit] at hnext ⊢
        obtain ⟨rfl, -⟩ := cutFraction_token h
        exact cutFraction_next (fun _ => head?_dropWhile) h hnext
      · rename_i hdigit
        rw [if_neg hdigit] at hnext ⊢
        split at h
        · cases h
        · rename_i hpoint
          rw [if_neg hpoint] at hnext ⊢
          exact cutOperator_next h hnext hcomment

/-! ## Every token of a scan -/

/-- Comments are trivia, so none starts behind a gap. -/
theorem not_comment_splitTrivia (inComment : Bool) (text : List Char) :
    ¬['/', '/'] <+: (splitTrivia inComment text).2 := by
  induction text generalizing inComment with
  | nil => exact fun h => nomatch h
  | cons c text ih =>
    unfold splitTrivia
    split
    · exact ih _
    · split
      · exact ih _
      · split
        · exact ih _
        · rename_i hslash
          intro hopens
          obtain ⟨rfl, htail⟩ := List.cons_prefix_cons.mp hopens
          obtain ⟨behind, rfl⟩ := htail
          exact hslash ⟨rfl, rfl⟩

/-- What is left behind trivia does not open a comment. -/
theorem not_comment_of_splitTrivia {inComment : Bool} {text gap rest : List Char}
    (h : splitTrivia inComment text = (gap, rest)) : ¬['/', '/'] <+: rest := by
  have hnone := not_comment_splitTrivia inComment text
  rw [h] at hnone
  exact hnone

namespace Dissects

variable {line : Nat} {text : List Char} {pieces : List Piece}

/-- The end token stands last; any other token is a lexeme of its kind, and ends before the character
    that comes next. -/
theorem maximal (h : Dissects line text pieces) {before after : List Piece} {piece : Piece}
    (hpieces : pieces = before ++ piece :: after) {token : Token}
    (htoken : piece.item = .token token) :
    token.lexeme = String.ofList piece.span ∧
      (token.kind = .endOfFile ∧ after = [] ∨
        after ≠ [] ∧ IsLexeme token.kind piece.span ∧
          ∀ next, (after.flatMap Piece.text).head? = some next →
            EndsBefore token.kind piece.span next) := by
  induction h generalizing before with
  | @finish line text gap hsplit =>
    cases before with
    | nil =>
      cases hpieces
      cases htoken
      exact ⟨rfl, Or.inl ⟨rfl, rfl⟩⟩
    | cons first before => simp at hpieces
  | @read line text gap behind c pieces hsplit h ih =>
    cases before with
    | cons first before =>
      cases hpieces
      exact ih rfl
    | nil =>
      cases hpieces
      -- what follows is the rest that the cut left
      rw [h.flatMap_text]
      have hcomment : ¬['/', '/'] <+: c :: behind := not_comment_of_splitTrivia hsplit
      have hne : after ≠ [] := by
        rintro rfl
        cases h
      unfold Cut.item at htoken
      cases hreading : (cut c behind).reading with
      | token kind =>
        rw [hreading] at htoken
        cases htoken
        exact ⟨rfl, Or.inr ⟨hne, isLexeme_cut hreading, fun next hnext =>
          endsBefore_cut hreading hnext hcomment⟩⟩
      | fault fault =>
        rw [hreading] at htoken
        cases htoken

end Dissects

end Lexis

namespace Scanner

open Lexis

/-- **Every token of a scan is of its class and maximal.**  In the one dissection of a source text, no
    token is the marker, and the end token comes last only.  Any other token is written with a lexeme
    of its kind, and the source character right behind the lexeme, if there is one, does not prolong
    it. -/
theorem scan_maximal (source : String) :
    ∃ pieces, Dissects 1 source.toList pieces ∧ pieces.map Piece.item = scan source ∧
      pieces.flatMap Piece.text = source.toList ∧
      ∀ before piece after token, pieces = before ++ piece :: after → piece.item = .token token →
        token.lexeme = String.ofList piece.span ∧ token.kind ≠ .error ∧
          (token.kind = .endOfFile ↔ after = []) ∧
          (token.kind ≠ .endOfFile → IsLexeme token.kind piece.span ∧
            ∀ next, (after.flatMap Piece.text).head? = some next →
              EndsBefore token.kind piece.span next) := by
  obtain ⟨pieces, hpieces, hitems⟩ := scan_dissects source
  refine ⟨pieces, hpieces, hitems, hpieces.flatMap_text, ?_⟩
  intro before piece after token hsplit htoken
  obtain ⟨hlexeme, hend | ⟨hafter, hclass, hnext⟩⟩ := hpieces.maximal hsplit htoken
  · refine ⟨hlexeme, ?_, ⟨fun _ => hend.2, fun _ => hend.1⟩, fun hne => absurd hend.1 hne⟩
    rw [hend.1]
    decide
  · have hkind := hclass.kind_ne
    exact ⟨hlexeme, hkind.2, ⟨fun h => absurd h hkind.1, fun h => absurd h hafter⟩,
      fun _ => ⟨hclass, hnext⟩⟩

/-- Scanning resumes inside a number: what the faulty exponent leaves behind is taken to its end. -/
example : scan "1e+x52y" = [.error ⟨.invalidNumber, "1e+x", 1⟩, .token ⟨.number, "52", 1⟩,
    .token ⟨.identifier, "y", 1⟩, .token (.endOfFile 1)] := by
  decide +kernel

end Scanner

end CalcFrontEnd
