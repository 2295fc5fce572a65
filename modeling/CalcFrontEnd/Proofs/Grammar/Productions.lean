/-
  PRODUCTIONS — SimpCalc's grammar as a plain context-free grammar, with its words.

  1. **Data** — a `Nonterminal` is one of the sixteen left-hand sides of the language definition, a
     `Letter` a token kind or a nonterminal.  `Nonterminal.productions` lists the right-hand sides of
     each, with nothing in them but letters: no lookahead, no actions, no order of choice.

  2. **Words** — `Derives form word`: each nonterminal of a sentential form can be replaced by one of
     its right-hand sides, over and over, until the form is the word.  `n.Yields word` is the same for
     the form that is `n` alone, so the words that `n` yields are the language of `n`.

  3. **Facts** — a word of a concatenation is a concatenation of words (`derives_append_iff`), and
     replacing the first nonterminal only is enough (`exists_production`).  No nonterminal but
     `program` yields a word with an end token in it (`endOfFile_not_mem`).
-/
import CalcFrontEnd.Token.Kind

namespace CalcFrontEnd

/-- A left-hand side of the language definition. -/
inductive Nonterminal where
  | program
  | block
  | statement
  | argList
  | arg
  | ifTail
  | expr
  | termList
  | term
  | factorList
  | factor
  | atomList
  | atom
  | value
  | condition
  | relOp
deriving DecidableEq, Repr

/-- A letter of a sentential form. -/
inductive Letter where
  | token (kind : Kind)
  | nonterminal (nonterminal : Nonterminal)
deriving DecidableEq, Repr

namespace Nonterminal

/-- Every nonterminal. -/
def all : List Nonterminal :=
  [program, block, statement, argList, arg, ifTail, expr, termList, term, factorList, factor,
   atomList, atom, value, condition, relOp]

theorem mem_all (n : Nonterminal) : n ∈ all := by cases n <;> decide

/-- The right-hand sides of a nonterminal. -/
def productions : Nonterminal → List (List Letter)
  | program => [[.nonterminal block, .token .endOfFile]]
  | block => [[.nonterminal statement, .nonterminal block], []]
  | statement => [
      [.token .identifier, .token .assign, .nonterminal expr, .token .semicolon],
      [.token .printWord, .token .leftParen, .nonterminal arg, .nonterminal argList,
        .token .rightParen, .token .semicolon],
      [.token .ifWord, .nonterminal condition, .token .colon, .nonterminal block,
        .nonterminal ifTail]]
  | argList => [[.token .comma, .nonterminal arg, .nonterminal argList], []]
  | arg => [[.token .string], [.nonterminal expr]]
  | ifTail => [
      [.token .endifWord, .token .semicolon],
      [.token .elseWord, .nonterminal block, .token .endifWord, .token .semicolon]]
  | expr => [[.nonterminal term, .nonterminal termList]]
  | termList => [
      [.token .plus, .nonterminal term, .nonterminal termList],
      [.token .minus, .nonterminal term, .nonterminal termList],
      []]
  | term => [[.nonterminal factor, .nonterminal factorList]]
  | factorList => [
      [.token .multiply, .nonterminal factor, .nonterminal factorList],
      [.token .divide, .nonterminal factor, .nonterminal factorList],
      []]
  | factor => [[.nonterminal atom, .nonterminal atomList]]
  | atomList => [[.token .raise, .nonterminal atom, .nonterminal atomList], []]
  | atom => [[.token .minus, .nonterminal value], [.nonterminal value]]
  | value => [
      [.token .identifier],
      [.token .number],
      [.token .sqrtWord, .token .leftParen, .nonterminal expr, .token .rightParen],
      [.token .leftParen, .nonterminal expr, .token .rightParen]]
  | condition => [[.nonterminal expr, .nonterminal relOp, .nonterminal expr]]
  | relOp => [
      [.token .lessThan], [.token .equal], [.token .greaterThan], [.token .lessEqual],
      [.token .greaterEqual], [.token .notEqual]]

end Nonterminal

/-! ## Words -/

/-- `Derives form word` — the sentential form `form` derives the word `word`. -/
inductive Derives : List Letter → List Kind → Prop where
  | nil : Derives [] []
  | token (kind : Kind) {form : List Letter} {word : List Kind} (h : Derives form word) :
      Derives (.token kind :: form) (kind :: word)
  | expand {n : Nonterminal} {rhs form : List Letter} {u v : List Kind}
      (hrhs : rhs ∈ n.productions) (hu : Derives rhs u) (hv : Derives form v) :
      Derives (.nonterminal n :: form) (u ++ v)

/-- `n.Yields word` — `word` is in the language of the nonterminal `n`. -/
def Nonterminal.Yields (n : Nonterminal) (word : List Kind) : Prop :=
  Derives [.nonterminal n] word

/-! ## Concatenation -/

theorem Derives.append {α β : List Letter} {u v : List Kind} (hα : Derives α u)
    (hβ : Derives β v) : Derives (α ++ β) (u ++ v) := by
  induction hα with
  | nil => exact hβ
  | token kind _ ih => exact .token kind ih
  | expand hrhs hu _ _ ih =>
    rw [List.append_assoc]
    exact .expand hrhs hu ih

/-- A word of a concatenation splits into words of its two parts. -/
theorem derives_append_iff {α β : List Letter} {word : List Kind} :
    Derives (α ++ β) word ↔ ∃ u v, word = u ++ v ∧ Derives α u ∧ Derives β v := by
  constructor
  · intro h
    induction α generalizing word with
    | nil => exact ⟨[], word, rfl, .nil, h⟩
    | cons letter α ih =>
      cases h with
      | token kind h =>
        obtain ⟨u, v, rfl, hu, hv⟩ := ih h
        exact ⟨kind :: u, v, rfl, .token kind hu, hv⟩
      | @expand n rhs _ x _ hrhs hx h =>
        obtain ⟨u, v, rfl, hu, hv⟩ := ih h
        exact ⟨x ++ u, v, by rw [List.append_assoc], .expand hrhs hx hu, hv⟩
  · rintro ⟨u, v, rfl, hu, hv⟩
    exact hu.append hv

/-- The first letter of a form that is a token is the first of each of its words. -/
theorem Derives.of_token {kind : Kind} {form : List Letter} {word : List Kind}
    (h : Derives (.token kind :: form) word) : ∃ rest, word = kind :: rest ∧ Derives form rest := by
  cases h with
  | token _ h => exact ⟨_, rfl, h⟩

/-- A first nonterminal goes back to one of its right-hand sides, in place. -/
theorem Derives.exists_production {n : Nonterminal} {form : List Letter} {word : List Kind}
    (h : Derives (.nonterminal n :: form) word) :
    ∃ rhs ∈ n.productions, Derives (rhs ++ form) word := by
  cases h with
  | expand hrhs hu hv => exact ⟨_, hrhs, hu.append hv⟩

/-- Conversely, a right-hand side at the front folds back into its nonterminal. -/
theorem Derives.of_production {n : Nonterminal} {rhs form : List Letter} {word : List Kind}
    (hrhs : rhs ∈ n.productions) (h : Derives (rhs ++ form) word) :
    Derives (.nonterminal n :: form) word := by
  obtain ⟨u, v, rfl, hu, hv⟩ := derives_append_iff.mp h
  exact .expand hrhs hu hv

/-! ## Every form has a word -/

/-- A nonterminal has a word if one of its right-hand sides has. -/
theorem exists_yields_of_production {n : Nonterminal} {rhs : List Letter}
    (hrhs : rhs ∈ n.productions) (h : ∃ word, Derives rhs word) : ∃ word, n.Yields word := by
  obtain ⟨word, hword⟩ := h
  exact ⟨word ++ [], .expand hrhs hword .nil⟩

/-- A form has a word if its nonterminals have. -/
theorem exists_derives_of_yields {form : List Letter}
    (h : ∀ n, .nonterminal n ∈ form → ∃ word, n.Yields word) : ∃ word, Derives form word := by
  induction form with
  | nil => exact ⟨[], .nil⟩
  | cons letter form ih =>
    obtain ⟨rest, hrest⟩ := ih fun n hn => h n (List.mem_cons_of_mem _ hn)
    cases letter with
    | token kind => exact ⟨_, .token kind hrest⟩
    | nonterminal n =>
      obtain ⟨word, hword⟩ := h n List.mem_cons_self
      exact ⟨_, Derives.append hword hrest⟩

/-- How many nonterminals stand below one another in the least deep word of a nonterminal. -/
def Nonterminal.depth : Nonterminal → Nat
  | block | argList | termList | factorList | atomList | value | relOp | arg | ifTail => 0
  | atom | program => 1
  | factor => 2
  | term => 3
  | expr => 4
  | statement | condition => 5

/-- Every nonterminal has a right-hand side that is less deep. -/
theorem Nonterminal.exists_shallow (n : Nonterminal) :
    ∃ rhs ∈ n.productions, ∀ m, .nonterminal m ∈ rhs → m.depth < n.depth := by
  have table : ∀ n ∈ all, ∃ rhs ∈ n.productions, ∀ m ∈ all, .nonterminal m ∈ rhs →
      m.depth < n.depth := by decide +kernel
  obtain ⟨rhs, hrhs, hdepth⟩ := table n n.mem_all
  exact ⟨rhs, hrhs, fun m => hdepth m m.mem_all⟩

/-- **Every nonterminal has a word**, by induction on its depth. -/
theorem Nonterminal.exists_yields (n : Nonterminal) : ∃ word, n.Yields word := by
  obtain ⟨rhs, hrhs, hdepth⟩ := n.exists_shallow
  exact exists_yields_of_production hrhs
    (exists_derives_of_yields fun m hm => have := hdepth m hm; exists_yields m)
termination_by n.depth

/-- Every form has a word. -/
theorem exists_derives (form : List Letter) : ∃ word, Derives form word :=
  exists_derives_of_yields fun n _ => n.exists_yields

/-! ## The end token stands at the end of a program only -/

/-- Whether a letter can be met without an end token. -/
def Letter.isInner (letter : Letter) : Bool :=
  letter != .token .endOfFile && letter != .nonterminal .program

/-- Below `program` every right-hand side is made of inner letters. -/
theorem Nonterminal.isInner_productions {n : Nonterminal} (hn : n ≠ .program) :
    ∀ rhs ∈ n.productions, ∀ letter ∈ rhs, letter.isInner = true := by
  revert hn
  cases n <;> decide

/-- A form of inner letters derives no word with an end token. -/
theorem Derives.endOfFile_not_mem {form : List Letter} {word : List Kind} (h : Derives form word)
    (hform : ∀ letter ∈ form, letter.isInner = true) : Kind.endOfFile ∉ word := by
  induction h with
  | nil => exact List.not_mem_nil
  | token kind _ ih =>
    obtain ⟨hkind, hform⟩ := List.forall_mem_cons.mp hform
    intro hmem
    rcases List.mem_cons.mp hmem with rfl | hmem
    · exact absurd hkind (by decide)
    · exact ih hform hmem
  | @expand n rhs _ _ _ hrhs _ _ ihu ihv =>
    obtain ⟨hn, hform⟩ := List.forall_mem_cons.mp hform
    have hne : n ≠ .program := by
      rintro rfl
      exact absurd hn (by decide)
    intro hmem
    rcases List.mem_append.mp hmem with hmem | hmem
    · exact ihu (Nonterminal.isInner_productions hne rhs hrhs) hmem
    · exact ihv hform hmem

/-- A program is a block and one end token. -/
theorem yields_program_iff {word : List Kind} :
    Nonterminal.program.Yields word ↔
      ∃ u, word = u ++ [.endOfFile] ∧ Nonterminal.block.Yields u := by
  constructor
  · intro h
    obtain ⟨rhs, hrhs, h⟩ := Derives.exists_production h
    obtain rfl : rhs = [.nonterminal .block, .token .endOfFile] := by
      simpa [Nonterminal.productions] using hrhs
    obtain ⟨u, v, rfl, hu, hv⟩ := derives_append_iff (α := [.nonterminal .block]).mp h
    obtain ⟨rest, rfl, hrest⟩ := hv.of_token
    cases hrest
    exact ⟨u, rfl, hu⟩
  · rintro ⟨u, rfl, hu⟩
    refine Derives.of_production (List.mem_singleton.mpr rfl) ?_
    exact hu.append (.token .endOfFile .nil)

end CalcFrontEnd
