/-
  FORMS — a recognizer's stack read as a sentential form of the grammar.

  1. **Bridge** — `sententialForm` takes the actions out of a stack of symbols and puts for each goal
     what it stands for.  Sixteen goals are nonterminals; the other four stand for a right-hand side, or
     the rest of one, that the lookahead has already picked.

  2. **One step** — what the lookahead picks is a production (`form_expand`), and the production that a
     derivation uses is the one that the lookahead picks, as long as the form is settled (`expand_eq`).
     Where the lookahead picks nothing, no word starts with it (`not_mem_openers_of_error`).  All three
     are finite tables.

  3. **Crux** — `derives_of_expand` and `expand_of_derives`: expanding the goal on top of a stack
     neither gains nor loses a derivation of what lies ahead.
-/
import CalcFrontEnd.Proofs.Grammar.Lookahead

namespace CalcFrontEnd

/-! ## Stacks as sentential forms -/

namespace Goal

/-- Every goal. -/
def all : List Goal :=
  [program, block, statement, assignment, print, conditional, ifTail, argList, arg, expr, termList,
   term, factorList, factor, atomList, atom, value, condition, comparison, relOp]

theorem mem_all (g : Goal) : g ∈ all := by cases g <;> decide

/-- What a goal stands for in the grammar. -/
def form : Goal → List Letter
  | program => [.nonterminal .program]
  | block => [.nonterminal .block]
  | statement => [.nonterminal .statement]
  | assignment => [.token .identifier, .token .assign, .nonterminal .expr, .token .semicolon]
  | print => [.token .printWord, .token .leftParen, .nonterminal .arg, .nonterminal .argList,
      .token .rightParen, .token .semicolon]
  | conditional => [.token .ifWord, .nonterminal .condition, .token .colon, .nonterminal .block,
      .nonterminal .ifTail]
  | ifTail => [.nonterminal .ifTail]
  | argList => [.nonterminal .argList]
  | arg => [.nonterminal .arg]
  | expr => [.nonterminal .expr]
  | termList => [.nonterminal .termList]
  | term => [.nonterminal .term]
  | factorList => [.nonterminal .factorList]
  | factor => [.nonterminal .factor]
  | atomList => [.nonterminal .atomList]
  | atom => [.nonterminal .atom]
  | value => [.nonterminal .value]
  | condition => [.nonterminal .condition]
  | comparison => [.nonterminal .relOp, .nonterminal .expr]
  | relOp => [.nonterminal .relOp]

/-- What a goal may be expanded to: the productions of its nonterminal, or its form itself. -/
def alternatives (g : Goal) : List (List Letter) :=
  match g.form with
  | [.nonterminal n] => n.productions
  | form => [form]

end Goal

/-- The letters of a symbol; actions have none. -/
def Symbol.form : Symbol → List Letter
  | token kind => [.token kind]
  | goal g => g.form
  | remark _ => []
  | complete _ _ => []

/-- A stack of symbols without its actions. -/
def sententialForm (stack : List Symbol) : List Letter := stack.flatMap Symbol.form

@[simp] theorem sententialForm_nil : sententialForm [] = [] := rfl

@[simp] theorem sententialForm_cons (symbol : Symbol) (stack : List Symbol) :
    sententialForm (symbol :: stack) = symbol.form ++ sententialForm stack := rfl

@[simp] theorem sententialForm_append (symbols stack : List Symbol) :
    sententialForm (symbols ++ stack) = sententialForm symbols ++ sententialForm stack :=
  List.flatMap_append

/-- The record that follows a right-hand side is no letter. -/
@[simp] theorem sententialForm_completion (g : Goal) (start : Nat) :
    sententialForm (g.completion start) = [] := by
  unfold Goal.completion
  split <;> rfl

/-! ## One step -/

/-- A goal derives what one of its alternatives derives. -/
theorem derives_form_iff {g : Goal} {form : List Letter} {word : List Kind} :
    Derives (g.form ++ form) word ↔ ∃ rhs ∈ g.alternatives, Derives (rhs ++ form) word := by
  unfold Goal.alternatives
  split
  · rename_i n hn
    rw [hn]
    exact ⟨Derives.exists_production, fun ⟨_, hrhs, h⟩ => Derives.of_production hrhs h⟩
  · simp

/-- The alternatives of a settled goal are settled. -/
theorem settles_alternative {g : Goal} {rhs form : List Letter} {next : Kind}
    (hrhs : rhs ∈ g.alternatives) (h : Settles (g.form ++ form) next) :
    Settles (rhs ++ form) next := by
  unfold Goal.alternatives at hrhs
  split at hrhs
  · rename_i n hn
    rw [hn] at h
    exact settles_expand hrhs h
  · rw [List.mem_singleton.mp hrhs]
    exact h

/-- What the lookahead picks is an alternative. -/
theorem form_expand {g : Goal} {ahead : Kind} {symbols : List Symbol}
    (h : g.expand ahead = .ok symbols) : sententialForm symbols ∈ g.alternatives := by
  have table : ∀ g ∈ Goal.all, ∀ ahead ∈ Kind.all, ∀ symbols ∈ (g.expand ahead).toOption,
      sententialForm symbols ∈ g.alternatives := by decide +kernel
  exact table g g.mem_all ahead ahead.mem_all symbols (by rw [h]; rfl)

/-- **One token of lookahead is enough**: an alternative is picked by each of its openers, where
    nothing prolongs the goal. -/
theorem expand_eq {g : Goal} {rhs : List Letter} {next ahead : Kind} (hrhs : rhs ∈ g.alternatives)
    (hnext : Settles g.form next) (hahead : ahead ∈ openers rhs next) :
    ∃ symbols, g.expand ahead = .ok symbols ∧ sententialForm symbols = rhs := by
  have table : ∀ g ∈ Goal.all, ∀ rhs ∈ g.alternatives, ∀ next ∈ Kind.all, Settles g.form next →
      ∀ ahead ∈ openers rhs next,
        (g.expand ahead).toOption.map sententialForm = some rhs := by decide +kernel
  have hentry := table g g.mem_all rhs hrhs next next.mem_all hnext ahead hahead
  cases hexpand : g.expand ahead with
  | error fault => simp [hexpand, Except.toOption] at hentry
  | ok symbols =>
    refine ⟨symbols, rfl, ?_⟩
    simpa [hexpand, Except.toOption] using hentry

/-- Expanding a goal backwards keeps a derivation. -/
theorem derives_of_expand {g : Goal} {ahead : Kind} {symbols : List Symbol} {form : List Letter}
    {word : List Kind} (h : g.expand ahead = .ok symbols)
    (hword : Derives (sententialForm symbols ++ form) word) : Derives (g.form ++ form) word :=
  derives_form_iff.mpr ⟨_, form_expand h, hword⟩

/-- Expanding a goal forwards keeps a derivation of what lies ahead, if the form is settled. -/
theorem expand_of_derives {g : Goal} {form : List Letter} {word : List Kind} {next : Kind}
    (hword : Derives (g.form ++ form) word) (hnext : Settles (g.form ++ form) next) :
    ∃ symbols, g.expand (word.headD next) = .ok symbols ∧
      Derives (sententialForm symbols ++ form) word ∧
      Settles (sententialForm symbols ++ form) next := by
  obtain ⟨rhs, hrhs, hword⟩ := derives_form_iff.mp hword
  obtain ⟨u, v, rfl, hu, hv⟩ := derives_append_iff.mp hword
  -- the goal's own word is followed by the first kind of the form's
  have hfirst : (u ++ v).headD next = u.headD (v.headD next) := by cases u <;> rfl
  have hgoal : Settles g.form (v.headD next) :=
    (settles_append_iff.mp hnext).1 _ (derives_opener hv next)
  obtain ⟨symbols, hexpand, rfl⟩ := expand_eq hrhs hgoal (derives_opener hu (v.headD next))
  refine ⟨symbols, ?_, hword, settles_alternative hrhs hnext⟩
  rw [hfirst]
  exact hexpand

/-- A goal that the lookahead has no alternative for has no word that starts with it. -/
theorem not_mem_openers_of_error {g : Goal} {ahead : Kind} {fault : ParseFault}
    (h : g.expand ahead = .error fault) (next : Kind) : ahead ∉ openers g.form next := by
  have table : ∀ g ∈ Goal.all, ∀ ahead ∈ Kind.all, (g.expand ahead).toOption = none →
      ∀ next ∈ Kind.all, ahead ∉ openers g.form next := by decide +kernel
  exact table g g.mem_all ahead ahead.mem_all (by rw [h]; rfl) next next.mem_all

/-- The faults of goals that the lookahead has no alternative for. -/
def Goal.faults : List ParseFault :=
  [.statementExpected, .incompleteIf, .symbolExpected, .missingRelationalOperator,
   .relationalOperatorExpected]

theorem mem_faults_of_expand {g : Goal} {ahead : Kind} {fault : ParseFault}
    (h : g.expand ahead = .error fault) : fault ∈ Goal.faults := by
  cases g <;> simp only [Goal.expand] at h <;> (try split at h) <;> cases h <;> decide

end CalcFrontEnd
