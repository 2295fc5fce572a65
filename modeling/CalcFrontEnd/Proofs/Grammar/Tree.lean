/-
  DERIVATION TREES — a word of the grammar together with its structure.

  1. **Data** — a `Forest` is a row of trees: a leaf is a token, a node is a nonterminal over the row of
     its constituents.  A forest is `Valid` if the letters below each node are a right-hand side of its
     nonterminal.  A `Tree n` is what stands below a node for `n`, with the proof that it may.

  2. **Readings** — `word` are the kinds of the leaves, `record` lists the nodes in post-order with the
     token indices they cover, `log` goes through the statements in order.  None of them knows of a
     recognizer.

  3. **Crux** — `eq_of_word_append`: where nothing that follows prolongs the letters of a row, its word
     leaves no choice.  Two rows of one word have the same first token, which picks the same right-hand
     side for both (`production_eq`), so they agree below the first node, and then behind it.

  4. **Result** — a tree is determined by its word (`Tree.eq_of_word_eq`).
-/
import CalcFrontEnd.Proofs.Recognizer.Form

namespace CalcFrontEnd

/-- A row of derivation trees. -/
inductive Forest where
  | nil
  /-- A token in front of more trees. -/
  | leaf (kind : Kind) (rest : Forest)
  /-- A nonterminal over the row of its constituents, in front of more trees. -/
  | node (n : Nonterminal) (below rest : Forest)
deriving DecidableEq, Repr

namespace Forest

/-- Two rows side by side. -/
def append : Forest → Forest → Forest
  | nil, trees => trees
  | leaf kind rest, trees => leaf kind (rest.append trees)
  | node n below rest, trees => node n below (rest.append trees)

instance : Append Forest := ⟨append⟩

/-- The letters at the roots. -/
def letters : Forest → List Letter
  | nil => []
  | leaf kind rest => .token kind :: rest.letters
  | node n _ rest => .nonterminal n :: rest.letters

/-- Below each node stands a right-hand side of its nonterminal. -/
def Valid : Forest → Prop
  | nil => True
  | leaf _ rest => rest.Valid
  | node n below rest => below.letters ∈ n.productions ∧ below.Valid ∧ rest.Valid

instance instDecidableValid : ∀ forest : Forest, Decidable forest.Valid
  | nil => inferInstanceAs (Decidable True)
  | leaf _ rest => instDecidableValid rest
  | node n below rest =>
    have := instDecidableValid below
    have := instDecidableValid rest
    inferInstanceAs (Decidable (below.letters ∈ n.productions ∧ below.Valid ∧ rest.Valid))

/-- The kinds of the tokens, from left to right. -/
def word : Forest → List Kind
  | nil => []
  | leaf kind rest => kind :: rest.word
  | node _ below rest => below.word ++ rest.word

end Forest

/-! ## What a tree says about its word -/

/-- The constituent that a nonterminal is recorded as. -/
def Nonterminal.constituent? : Nonterminal → Option Constituent
  | statement => some .statement
  | condition => some .condition
  | expr => some .expr
  | term => some .term
  | factor => some .factor
  | atom => some .atom
  | value => some .value
  | _ => none

/-- The record of one node that covers the tokens from `start` up to `stop`. -/
def Nonterminal.entry (n : Nonterminal) (start stop : Nat) : List Derivation :=
  (n.constituent?.map fun constituent => ⟨constituent, start, stop⟩).toList

namespace Forest

/-- The nodes in post-order, with the token indices they cover, if the row starts at `start`. -/
def record : Forest → Nat → List Derivation
  | nil, _ => []
  | leaf _ rest, start => rest.record (start + 1)
  | node n below rest, start =>
    let stop := start + below.word.length
    below.record start ++ n.entry start stop ++ rest.record stop

/-- What is logged in front of the constituents of a node. -/
def opening : Nonterminal → Forest → List Remark
  | .statement, leaf .ifWord _ => [.ifBegins]
  | _, _ => []

/-- What is logged behind the constituents of a node. -/
def closing : Nonterminal → Forest → List Remark
  | .statement, leaf .identifier _ => [.assignmentRecognized]
  | .statement, leaf .printWord _ => [.printRecognized]
  | .statement, leaf .ifWord _ => [.ifEnds]
  | _, _ => []

/-- The log of the statements, in the order of the text: an assignment and a printing are logged at
    their end, a conditional in front of and behind all that is logged inside it. -/
def log : Forest → List Remark
  | nil => []
  | leaf _ rest => rest.log
  | node n below rest => opening n below ++ below.log ++ closing n below ++ rest.log

/-! ### Rows side by side -/

@[simp] theorem nil_append (trees : Forest) : nil ++ trees = trees := rfl

@[simp] theorem leaf_append (kind : Kind) (rest trees : Forest) :
    leaf kind rest ++ trees = leaf kind (rest ++ trees) := rfl

@[simp] theorem node_append (n : Nonterminal) (below rest trees : Forest) :
    node n below rest ++ trees = node n below (rest ++ trees) := rfl

@[simp] theorem append_nil (row : Forest) : row ++ nil = row := by
  induction row with
  | nil => rfl
  | leaf kind rest ih => rw [leaf_append, ih]
  | node n below rest _ ih => rw [node_append, ih]

@[simp] theorem append_assoc (row trees more : Forest) :
    row ++ trees ++ more = row ++ (trees ++ more) := by
  induction row with
  | nil => rfl
  | leaf kind rest ih => simp only [leaf_append, ih]
  | node n below rest _ ih => simp only [node_append, ih]

@[simp] theorem letters_append (row trees : Forest) :
    (row ++ trees).letters = row.letters ++ trees.letters := by
  induction row with
  | nil => rfl
  | leaf kind rest ih => simp only [leaf_append, letters, ih, List.cons_append]
  | node n below rest _ ih => simp only [node_append, letters, ih, List.cons_append]

@[simp] theorem word_append (row trees : Forest) : (row ++ trees).word = row.word ++ trees.word := by
  induction row with
  | nil => rfl
  | leaf kind rest ih => simp only [leaf_append, word, ih, List.cons_append]
  | node n below rest _ ih => simp only [node_append, word, ih, List.append_assoc]

@[simp] theorem valid_append (row trees : Forest) :
    (row ++ trees).Valid ↔ row.Valid ∧ trees.Valid := by
  induction row with
  | nil => simp [Valid]
  | leaf kind rest ih => simp only [leaf_append, Valid, ih]
  | node n below rest _ ih => simp only [node_append, Valid, ih, and_assoc]

@[simp] theorem log_append (row trees : Forest) : (row ++ trees).log = row.log ++ trees.log := by
  induction row with
  | nil => rfl
  | leaf kind rest ih => simp only [leaf_append, log, ih]
  | node n below rest _ ih => simp only [node_append, log, ih, List.append_assoc]

@[simp] theorem record_append (row trees : Forest) (start : Nat) :
    (row ++ trees).record start = row.record start ++ trees.record (start + row.word.length) := by
  induction row generalizing start with
  | nil => rfl
  | leaf kind rest ih =>
    simp only [leaf_append, record, ih, word, List.length_cons]
    rw [Nat.add_assoc, Nat.add_comm 1]
  | node n below rest _ ih =>
    simp only [node_append, record, ih, word, List.length_append, List.append_assoc, Nat.add_assoc]

/-! ## One word, one row -/

/-- The word of a valid row is derived from its letters. -/
theorem Valid.derives {row : Forest} (h : row.Valid) : Derives row.letters row.word := by
  induction row with
  | nil => exact .nil
  | leaf kind rest ih => exact .token kind (ih h)
  | node n below rest ihbelow ihrest =>
    obtain ⟨hrhs, hbelow, hrest⟩ := h
    exact .expand hrhs (ihbelow hbelow) (ihrest hrest)

end Forest

/-- The goal that a nonterminal is recognized as. -/
def Nonterminal.goal : Nonterminal → Goal
  | program => .program
  | block => .block
  | statement => .statement
  | argList => .argList
  | arg => .arg
  | ifTail => .ifTail
  | expr => .expr
  | termList => .termList
  | term => .term
  | factorList => .factorList
  | factor => .factor
  | atomList => .atomList
  | atom => .atom
  | value => .value
  | condition => .condition
  | relOp => .relOp

/-- The goal stands for the nonterminal. -/
theorem Nonterminal.form_goal (n : Nonterminal) : n.goal.form = [.nonterminal n] := by
  cases n <;> rfl

/-- A first token picks one right-hand side, where nothing that follows prolongs the nonterminal. -/
theorem production_eq {n : Nonterminal} {rhs other : List Letter} {ahead next behind : Kind}
    (hrhs : rhs ∈ n.productions) (hother : other ∈ n.productions)
    (hnext : next ∉ n.continuations) (hbehind : behind ∉ n.continuations)
    (hahead : ahead ∈ openers rhs next) (hahead' : ahead ∈ openers other behind) : rhs = other := by
  have halternatives : n.goal.alternatives = n.productions := by cases n <;> rfl
  have hsettles : ∀ kind, kind ∉ n.continuations → Settles n.goal.form kind := by
    intro kind hkind
    rw [n.form_goal]
    refine ⟨?_, trivial⟩
    intro opener hopener
    rw [List.mem_singleton.mp hopener]
    exact hkind
  -- both are what the goal is expanded to at the token
  obtain ⟨symbols, hexpand, rfl⟩ := expand_eq (halternatives ▸ hrhs) (hsettles next hnext) hahead
  obtain ⟨symbols', hexpand', rfl⟩ :=
    expand_eq (halternatives ▸ hother) (hsettles behind hbehind) hahead'
  rw [hexpand] at hexpand'
  cases hexpand'
  rfl

namespace Forest

/-- The first kind of a text is that of its first part, or of the second if that one is empty. -/
theorem headD_append (u v : List Kind) (next : Kind) :
    (u ++ v).headD next = u.headD (v.headD next) := by
  cases u <;> rfl

/-- **A row is determined by its word** and its letters, where nothing that follows prolongs them. -/
theorem eq_of_word_append {row other : Forest} {behind behind' : List Kind} {next : Kind}
    (hrow : row.Valid) (hother : other.Valid) (hletters : row.letters = other.letters)
    (hsettles : Settles row.letters (behind.headD next))
    (hsettles' : Settles other.letters (behind'.headD next))
    (hword : row.word ++ behind = other.word ++ behind') : row = other := by
  induction row generalizing other behind behind' with
  | nil =>
    cases other with
    | nil => rfl
    | leaf kind rest => cases hletters
    | node n below rest => cases hletters
  | leaf kind rest ih =>
    cases other with
    | nil => cases hletters
    | leaf kind' rest' =>
      obtain ⟨hkind, htail⟩ := List.cons.inj hword
      have hrest : rest = rest' :=
        ih hrow hother (List.cons.inj hletters).2 hsettles hsettles' htail
      rw [hkind, hrest]
    | node n below rest' => cases List.head_eq_of_cons_eq hletters
  | node n below rest ihbelow ihrest =>
    cases other with
    | nil => cases hletters
    | leaf kind rest' => cases List.head_eq_of_cons_eq hletters
    | node n' below' rest' =>
      obtain ⟨hhead, htail⟩ := List.cons.inj hletters
      cases hhead
      obtain ⟨hrhs, hbelow, hrest⟩ := hrow
      obtain ⟨hrhs', hbelow', hrest'⟩ := hother
      simp only [word, List.append_assoc] at hword
      -- what follows the constituents is what the rest of the row opens with
      have hnext : (rest.word ++ behind).headD next ∉ n.continuations := by
        rw [headD_append]
        exact hsettles.1 _ (derives_opener hrest.derives _)
      have hnext' : (rest'.word ++ behind').headD next ∉ n.continuations := by
        rw [headD_append]
        exact hsettles'.1 _ (derives_opener hrest'.derives _)
      -- so the common first token picks the right-hand side
      have hahead := derives_opener hbelow.derives ((rest.word ++ behind).headD next)
      have hahead' := derives_opener hbelow'.derives ((rest'.word ++ behind').headD next)
      rw [← headD_append] at hahead hahead'
      have hsame : below.letters = below'.letters :=
        production_eq hrhs hrhs' hnext hnext' hahead (hword ▸ hahead')
      obtain rfl : below = below' := ihbelow hbelow hbelow' hsame
        (settles_production hrhs hnext) (settles_production hrhs' hnext') hword
      rw [ihrest hrest hrest' htail hsettles.2 hsettles'.2 (List.append_cancel_left hword)]

end Forest

/-! ## Trees -/

/-- A derivation tree of a nonterminal: the row of its constituents. -/
structure Tree (n : Nonterminal) where
  below : Forest
  production : below.letters ∈ n.productions
  valid : below.Valid

namespace Tree

variable {n : Nonterminal}

/-- The tree as a row of one. -/
def forest (tree : Tree n) : Forest := .node n tree.below .nil

/-- The kinds of the tokens. -/
def word (tree : Tree n) : List Kind := tree.forest.word

/-- The nodes in post-order, with the token indices they cover. -/
def record (tree : Tree n) : List Derivation := tree.forest.record 0

/-- The log of the statements, in the order of the text. -/
def log (tree : Tree n) : List Remark := tree.forest.log

theorem valid_forest (tree : Tree n) : tree.forest.Valid := ⟨tree.production, tree.valid, trivial⟩

/-- The word of a tree is in the language of its nonterminal. -/
theorem yields (tree : Tree n) : n.Yields tree.word := tree.valid_forest.derives

/-- A valid row with a single nonterminal at its root is a tree. -/
theorem exists_forest_eq {row : Forest} (hletters : row.letters = [.nonterminal n])
    (hvalid : row.Valid) : ∃ tree : Tree n, tree.forest = row := by
  cases row with
  | nil => cases hletters
  | leaf kind rest => cases (List.cons.inj hletters).1
  | node m below rest =>
    obtain ⟨hhead, hrest⟩ := List.cons.inj hletters
    cases hhead
    cases rest with
    | nil => exact ⟨⟨below, hvalid.1, hvalid.2.1⟩, rfl⟩
    | leaf kind rest => cases hrest
    | node m below rest => cases hrest

/-- **A tree is determined by its word.** -/
theorem eq_of_word_eq {tree other : Tree n} (h : tree.word = other.word)
    (hn : Kind.endOfFile ∉ n.continuations) : tree = other := by
  -- only the end of all text follows, and that does not prolong the tree
  have hsettles : Settles tree.forest.letters (([] : List Kind).headD .endOfFile) := by
    refine ⟨?_, trivial⟩
    intro kind hkind
    rw [List.mem_singleton.mp hkind]
    exact hn
  have hword : tree.forest.word ++ [] = other.forest.word ++ [] := by
    rw [List.append_nil, List.append_nil]
    exact h
  have hforest : tree.forest = other.forest :=
    Forest.eq_of_word_append tree.valid_forest other.valid_forest rfl hsettles hsettles hword
  cases tree
  cases other
  cases hforest
  rfl

end Tree

end CalcFrontEnd
