/-
  LOOKAHEAD — what the next token says about a sentential form.

  1. **Data** — `starts n` are the kinds that a non-empty word of `n` starts with, `mayBeEmpty n` says
     whether `n` has the empty word, and `continuations n` are the kinds that would prolong a finished
     `n`: a `+` behind an expression, a statement's first token behind a block.

  2. **Program** — `openers form next` computes the kinds that can come first when a word of `form` is
     followed by `next`.  `Settles form next` asks, at each nonterminal of the form, that no kind which
     can come right behind it prolongs it.

  3. **Specification** — `derives_opener`: what comes first is among the openers.  `settles_expand`:
     replacing a nonterminal by a right-hand side keeps a settled form settled.

  4. **Crux** — both need facts about the productions alone, one right-hand side at a time
     (`openers_production`, `settles_production`), and these are finite tables.
-/
import CalcFrontEnd.Proofs.Grammar.Productions
import CalcFrontEnd.Grammar.Goal

namespace CalcFrontEnd

namespace Kind

/-- The kinds that start an operand. -/
def valueStarts : List Kind := [identifier, number, sqrtWord, leftParen]

/-- The kinds that start an expression. -/
def exprStarts : List Kind := minus :: valueStarts

/-- The kinds that prolong an expression. -/
def exprContinuations : List Kind := additive ++ multiplicative ++ [raise]

end Kind

namespace Nonterminal

/-- The kinds that a non-empty word starts with. -/
def starts : Nonterminal → List Kind
  | program => Kind.statementStarts ++ [.endOfFile]
  | block | statement => Kind.statementStarts
  | argList => [.comma]
  | arg => .string :: Kind.exprStarts
  | ifTail => [.endifWord, .elseWord]
  | termList => Kind.additive
  | factorList => Kind.multiplicative
  | atomList => [.raise]
  | expr | term | factor | atom | condition => Kind.exprStarts
  | value => Kind.valueStarts
  | relOp => Kind.relational

/-- Whether the empty word is among the words. -/
def mayBeEmpty : Nonterminal → Bool
  | block | argList | termList | factorList | atomList => true
  | _ => false

/-- The kinds that prolong a word which is already complete. -/
def continuations : Nonterminal → List Kind
  | block => Kind.statementStarts
  | argList => .comma :: Kind.exprContinuations
  | arg | expr | termList | condition => Kind.exprContinuations
  | term | factorList => Kind.multiplicative ++ [.raise]
  | factor | atomList => [.raise]
  | program | statement | ifTail | atom | value | relOp => []

end Nonterminal

/-! ## What can come first -/

/-- The kinds that can come first where a word of the form is followed by `next`. -/
def openers : List Letter → Kind → List Kind
  | [], next => [next]
  | .token kind :: _, _ => [kind]
  | .nonterminal n :: form, next =>
    n.starts ++ if n.mayBeEmpty then openers form next else []

/-- A right-hand side opens with a start of its nonterminal; the empty one leaves it to `next`. -/
theorem openers_production {n : Nonterminal} {rhs : List Letter} (hrhs : rhs ∈ n.productions)
    (next : Kind) : openers rhs next ⊆ openers [.nonterminal n] next := by
  have table : ∀ n ∈ Nonterminal.all, ∀ rhs ∈ n.productions, ∀ next ∈ Kind.all,
      ∀ kind ∈ openers rhs next, kind ∈ openers [.nonterminal n] next := by decide +kernel
  exact fun kind => table n n.mem_all rhs hrhs next next.mem_all kind

/-- **What comes first is an opener**: the first kind of a word of the form, or of what follows it
    if the word is empty. -/
theorem derives_opener {form : List Letter} {word : List Kind} (h : Derives form word)
    (next : Kind) : word.headD next ∈ openers form next := by
  induction h generalizing next with
  | nil => exact List.mem_singleton.mpr rfl
  | token kind _ _ => exact List.mem_singleton.mpr rfl
  | @expand n rhs form u v hrhs _ _ ihu ihv =>
    -- the nonterminal's word is followed by what comes first behind it
    have hfirst : (u ++ v).headD next = u.headD (v.headD next) := by cases u <;> rfl
    have hmem := openers_production hrhs (v.headD next) (ihu (v.headD next))
    rw [hfirst]
    show _ ∈ n.starts ++ if n.mayBeEmpty then openers form next else []
    rcases List.mem_append.mp hmem with hstart | hempty
    · exact List.mem_append_left _ hstart
    · refine List.mem_append_right _ ?_
      by_cases hn : n.mayBeEmpty = true
      · rw [if_pos hn] at hempty ⊢
        rw [List.mem_singleton.mp hempty]
        exact ihv next
      · rw [if_neg hn] at hempty
        exact absurd hempty List.not_mem_nil

/-- A nonterminal that may not be empty has no empty word. -/
theorem Nonterminal.ne_nil {n : Nonterminal} (hn : n.mayBeEmpty = false) {word : List Kind}
    (h : n.Yields word) : word ≠ [] := by
  rintro rfl
  -- an empty word would leave the first token to what follows, even to a marker
  have hopener : Kind.error ∈ openers [.nonterminal n] .error := derives_opener h .error
  have table : ∀ n ∈ Nonterminal.all, n.mayBeEmpty = false →
      Kind.error ∉ openers [.nonterminal n] .error := by decide
  exact table n n.mem_all hn hopener

/-! ## Settled forms -/

/-- Nothing that can come right behind a nonterminal of the form prolongs it. -/
def Settles : List Letter → Kind → Prop
  | [], _ => True
  | .token _ :: form, next => Settles form next
  | .nonterminal n :: form, next =>
    (∀ kind ∈ openers form next, kind ∉ n.continuations) ∧ Settles form next

instance instDecidableSettles : ∀ (form : List Letter) (next : Kind), Decidable (Settles form next)
  | [], _ => inferInstanceAs (Decidable True)
  | .token _ :: form, next => instDecidableSettles form next
  | .nonterminal n :: form, next =>
    have := instDecidableSettles form next
    inferInstanceAs (Decidable ((∀ kind ∈ openers form next, kind ∉ n.continuations) ∧ _))

/-- **The grammar needs one token of lookahead**: behind a nonterminal that `next` does not prolong,
    each of its right-hand sides is settled. -/
theorem settles_production {n : Nonterminal} {rhs : List Letter} (hrhs : rhs ∈ n.productions)
    {next : Kind} (hnext : next ∉ n.continuations) : Settles rhs next := by
  have table : ∀ n ∈ Nonterminal.all, ∀ rhs ∈ n.productions, ∀ next ∈ Kind.all,
      next ∉ n.continuations → Settles rhs next := by decide +kernel
  exact table n n.mem_all rhs hrhs next next.mem_all hnext

/-- Something can always come first. -/
theorem exists_mem_openers (form : List Letter) (next : Kind) : ∃ kind, kind ∈ openers form next := by
  match form with
  | [] => exact ⟨next, List.mem_singleton.mpr rfl⟩
  | .token kind :: _ => exact ⟨kind, List.mem_singleton.mpr rfl⟩
  | .nonterminal n :: _ =>
    have hstarts : n.starts ≠ [] := by cases n <;> decide
    obtain ⟨kind, hkind⟩ := List.exists_mem_of_ne_nil _ hstarts
    exact ⟨kind, List.mem_append_left _ hkind⟩

/-- What opens a concatenation opens its first part in front of what opens the second. -/
theorem mem_openers_append {α β : List Letter} {next kind : Kind} :
    kind ∈ openers (α ++ β) next ↔ ∃ mid ∈ openers β next, kind ∈ openers α mid := by
  induction α with
  | nil =>
    constructor
    · intro h
      exact ⟨kind, h, List.mem_singleton.mpr rfl⟩
    · rintro ⟨mid, hmid, h⟩
      rw [List.mem_singleton.mp h]
      exact hmid
  | cons letter α ih =>
    -- where the first part decides alone, any opener of the second will do
    obtain ⟨any, hany⟩ := exists_mem_openers β next
    cases letter with
    | token other => exact ⟨fun h => ⟨any, hany, h⟩, fun ⟨_, _, h⟩ => h⟩
    | nonterminal n =>
      simp only [List.cons_append, openers, List.mem_append]
      by_cases hn : n.mayBeEmpty = true
      · simp only [if_pos hn, ih]
        constructor
        · rintro (hstart | ⟨mid, hmid, hkind⟩)
          · exact ⟨any, hany, Or.inl hstart⟩
          · exact ⟨mid, hmid, Or.inr hkind⟩
        · rintro ⟨mid, hmid, hstart | hkind⟩
          · exact Or.inl hstart
          · exact Or.inr ⟨mid, hmid, hkind⟩
      · simp only [if_neg hn]
        exact ⟨fun h => ⟨any, hany, h⟩, fun ⟨_, _, h⟩ => h⟩

/-- A concatenation is settled if its second part is, and its first part in front of all that can
    open the second. -/
theorem settles_append_iff {α β : List Letter} {next : Kind} :
    Settles (α ++ β) next ↔ (∀ mid ∈ openers β next, Settles α mid) ∧ Settles β next := by
  induction α with
  | nil => exact ⟨fun h => ⟨fun _ _ => trivial, h⟩, fun h => h.2⟩
  | cons letter α ih =>
    cases letter with
    | token kind => exact ih
    | nonterminal n =>
      constructor
      · rintro ⟨hn, h⟩
        obtain ⟨hα, hβ⟩ := ih.mp h
        exact ⟨fun mid hmid => ⟨fun kind hkind => hn kind (mem_openers_append.mpr ⟨mid, hmid, hkind⟩),
          hα mid hmid⟩, hβ⟩
      · rintro ⟨hα, hβ⟩
        refine ⟨?_, ih.mpr ⟨fun mid hmid => (hα mid hmid).2, hβ⟩⟩
        intro kind hkind
        obtain ⟨mid, hmid, hkind⟩ := mem_openers_append.mp hkind
        exact (hα mid hmid).1 kind hkind

/-- **Expansion keeps a form settled.** -/
theorem settles_expand {n : Nonterminal} {rhs form : List Letter} {next : Kind}
    (hrhs : rhs ∈ n.productions) (h : Settles (.nonterminal n :: form) next) :
    Settles (rhs ++ form) next :=
  settles_append_iff.mpr ⟨fun mid hmid => settles_production hrhs (h.1 mid hmid), h.2⟩

end CalcFrontEnd
