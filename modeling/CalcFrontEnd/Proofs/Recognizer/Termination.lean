/-
  TERMINATION — every goal comes to its end, and what it calls on the way has less to do.

  1. **Slack** — the weight of a stack bounds the steps up to the next token of the list, so what has to be
     bounded is the weight that comes to light behind a token.  `Light stack behind`: below each symbol
     lies no more weight than the symbol's slack.  A right-hand side fits into the slack of its goal
     (`light_expand`), which is a finite table; so no stack of a run weighs more than `maxSlack`
     behind a token.

  2. **Crux (`Step.potential_lt`)** — each step lowers `15 * (tokens left) + weight`: a token of the list
     pays for the weight behind it, and without one the stack gets lighter.  The end tokens behind the
     list pay for nothing, but only a symbol for one of them passes there, and that one has a weight.

  3. **Calls** — a goal weighs no less than its rank, and alone on a stack no more.  So a call either has
     fewer tokens left, or is of lower rank (`Calls.less`).

  4. **Tokens** — a goal that may not be empty derives neither the empty word nor an end token, so where
     it gets through it has passed tokens of the list and no others (`exists_passes_of_recognize`).
     `program` derives an end token, and no more than one (`position_recognize_program_le`).

  5. **Result** — `recognize_terminates`.
-/
import CalcFrontEnd.Proofs.Recognizer.Blindness
import CalcFrontEnd.Proofs.Recognizer.Bookkeeping
import CalcFrontEnd.Proofs.Recognizer.Steps

namespace CalcFrontEnd

/-! ## Weights on top of other weights -/

/-- The weight of a stack with this symbol on top, where all below weighs `behind`. -/
def Symbol.weightOn : Symbol → Nat → Nat
  | .token kind, behind => if kind = .endOfFile then 1 + behind else 1
  | .goal g, behind => if g.mayBeEmpty then g.rank + behind else g.rank
  | .remark _, behind => 1 + behind
  | .complete _ _, behind => 1 + behind

/-- The weight of a stack, where all below it weighs `behind`. -/
def weightOn (stack : List Symbol) (behind : Nat) : Nat := stack.foldr Symbol.weightOn behind

/-- With nothing below it that is its weight. -/
theorem weight_eq_weightOn (stack : List Symbol) : weight stack = weightOn stack 0 := by
  induction stack with
  | nil => rfl
  | cons symbol stack ih =>
    show weight (symbol :: stack) = symbol.weightOn (weightOn stack 0)
    rw [← ih]
    cases symbol <;> rfl

theorem weightOn_append (symbols stack : List Symbol) (behind : Nat) :
    weightOn (symbols ++ stack) behind = weightOn symbols (weightOn stack behind) :=
  List.foldr_append

/-- The more weighs what lies below, the more weighs the stack. -/
theorem weightOn_mono (stack : List Symbol) {behind more : Nat} (h : behind ≤ more) :
    weightOn stack behind ≤ weightOn stack more := by
  induction stack with
  | nil => exact h
  | cons symbol stack ih =>
    show symbol.weightOn (weightOn stack behind) ≤ symbol.weightOn (weightOn stack more)
    cases symbol <;> simp only [Symbol.weightOn] <;> (try split) <;> omega

/-- Alone on a stack a goal weighs its rank. -/
theorem weight_goal (g : Goal) : weight [.goal g] = g.rank := by
  simp [weight]

/-- A goal weighs its rank at least. -/
theorem rank_le_weight (g : Goal) (stack : List Symbol) : g.rank ≤ weight (.goal g :: stack) := by
  rw [weight]
  split <;> omega

theorem Goal.rank_le (g : Goal) : g.rank ≤ 7 := by cases g <;> decide

/-! ## Slack -/

/-- The most weight that can come to light behind a token. -/
def maxSlack : Nat := 14

/-- The most weight that can lie below a goal: what may follow it in right-hand sides, up to the next
    token. -/
def Goal.slack : Goal → Nat
  | program => 0
  | argList | condition => 1
  | block | comparison => 2
  | arg | expr => 3
  | termList => 4
  | statement | term | relOp => 6
  | assignment | print | conditional | factorList => 7
  | ifTail => 8
  | factor => 9
  | atomList => 10
  | atom => 12
  | value => 13

/-- The most weight that can lie below a symbol. -/
def Symbol.slack : Symbol → Nat
  | .goal g => g.slack
  | _ => maxSlack

/-- `Light stack behind` — below each symbol of the stack lies no more weight than its slack, where all
    below the stack weighs `behind`. -/
def Light : List Symbol → Nat → Prop
  | [], _ => True
  | symbol :: stack, behind => weightOn stack behind ≤ symbol.slack ∧ Light stack behind

instance instDecidableLight : ∀ stack behind, Decidable (Light stack behind)
  | [], _ => inferInstanceAs (Decidable True)
  | symbol :: stack, behind =>
    have := instDecidableLight stack behind
    inferInstanceAs (Decidable (weightOn stack behind ≤ symbol.slack ∧ Light stack behind))

theorem light_append {symbols stack : List Symbol} {behind : Nat} :
    Light (symbols ++ stack) behind ↔ Light symbols (weightOn stack behind) ∧ Light stack behind := by
  induction symbols with
  | nil => exact ⟨fun h => ⟨trivial, h⟩, fun h => h.2⟩
  | cons symbol symbols ih =>
    show weightOn (symbols ++ stack) behind ≤ _ ∧ Light (symbols ++ stack) behind ↔ (_ ∧ _) ∧ _
    rw [ih, weightOn_append, and_assoc]

/-- With less below it a stack stays light. -/
theorem Light.mono {stack : List Symbol} {behind more : Nat} (h : Light stack more)
    (hle : behind ≤ more) : Light stack behind := by
  induction stack with
  | nil => trivial
  | cons symbol stack ih => exact ⟨Nat.le_trans (weightOn_mono stack hle) h.1, ih h.2⟩

/-- The index where a record starts has no weight. -/
theorem light_completion (symbols : List Symbol) (g : Goal) (start behind : Nat) :
    Light (symbols ++ g.completion start) behind ↔ Light (symbols ++ g.completion 0) behind := by
  rw [light_append, light_append]
  unfold Goal.completion
  cases g.constituent? <;> rfl

/-- **A right-hand side fits into the slack of its goal.** -/
theorem light_expand {g : Goal} {ahead : Kind} {symbols stack : List Symbol}
    (h : Light (.goal g :: stack) 0) (hexpand : g.expand ahead = .ok symbols) (start : Nat) :
    Light (symbols ++ (g.completion start ++ stack)) 0 := by
  have table : ∀ g ∈ Goal.all, ∀ ahead ∈ Kind.all, ∀ symbols ∈ (g.expand ahead).toOption,
      Light (symbols ++ g.completion 0) g.slack := by decide +kernel
  have hsymbols := table g g.mem_all ahead ahead.mem_all symbols (by rw [hexpand]; rfl)
  rw [← List.append_assoc, light_append]
  exact ⟨((light_completion symbols g start _).mpr hsymbols).mono h.1, h.2⟩

namespace Recognizer

/-! ## Steps -/

namespace Config

/-- The steps that are left at the most: for each token one to pass it and those behind it, up to the next
    one, and those in front of the first. -/
def potential (c : Config) : Nat := (maxSlack + 1) * c.state.rest.length + weight c.stack

variable {c d : Config} {n : Nat}

/-- Each step keeps a stack light. -/
theorem Step.light (h : c.Step d) (hlight : Light c.stack 0) : Light d.stack 0 := by
  cases h with
  | token => exact hlight.2
  | goal hexpand => exact light_expand hlight hexpand _
  | remark => exact hlight.2
  | complete => exact hlight.2

/-- **Each step lowers the potential.** -/
theorem Step.potential_lt (h : c.Step d) (hlight : Light c.stack 0) : d.potential < c.potential := by
  cases h with
  | @token stack s =>
    -- what comes to light behind a token was below it
    have hslack : weight stack ≤ 14 := by
      rw [weight_eq_weightOn]
      exact hlight.1
    show 15 * s.rest.tail.length + weight stack <
      15 * s.rest.length + weight (.token s.lookahead.kind :: stack)
    cases hrest : s.rest with
    | nil =>
      -- behind the list: the symbol was the end token's, and that one has a weight
      have hend : weight (.token .endOfFile :: stack) = 1 + weight stack := rfl
      rw [kind_lookahead_of_rest_eq_nil hrest, hend]
      show 15 * 0 + weight stack < 15 * 0 + (1 + weight stack)
      omega
    | cons token tokens =>
      rw [List.tail_cons, List.length_cons]
      omega
  | @goal g stack symbols s hexpand =>
    have hweight := weight_expand hexpand s.position stack
    show 15 * s.rest.length + weight (symbols ++ (g.completion s.position ++ stack)) <
      15 * s.rest.length + weight (.goal g :: stack)
    omega
  | @remark remark stack s =>
    show 15 * s.rest.length + weight stack < 15 * s.rest.length + (1 + weight stack)
    omega
  | @complete constituent start stack s =>
    show 15 * s.rest.length + weight stack < 15 * s.rest.length + (1 + weight stack)
    omega

/-- **Steps cost potential.** -/
theorem Steps.add_potential_le (h : Steps n c d) (hlight : Light c.stack 0) :
    Light d.stack 0 ∧ n + d.potential ≤ c.potential := by
  induction h with
  | refl c => exact ⟨hlight, by omega⟩
  | tail _ hstep ih =>
    obtain ⟨hlight', hle⟩ := ih hlight
    have hlt := hstep.potential_lt hlight'
    exact ⟨hstep.light hlight', by omega⟩

/-- A goal alone makes a light stack. -/
theorem light_goal (g : Goal) : Light [.goal g] 0 := ⟨Nat.zero_le _, trivial⟩

/-- **A goal takes so many steps at the most.** -/
theorem Steps.le_of_goal {g : Goal} {s : Recognizer} (h : Steps n ⟨[.goal g], s⟩ d) :
    n ≤ 15 * s.rest.length + 7 := by
  have hle := (h.add_potential_le (light_goal g)).2
  have hpotential : potential ⟨[.goal g], s⟩ = 15 * s.rest.length + weight [.goal g] := rfl
  have hrank := g.rank_le
  rw [weight_goal] at hpotential
  omega

end Config

/-! ## Calls -/

open Config

variable {tokens : List Token} {s t : Recognizer} {g g' : Goal}

/-- **What is called has less to do**: there are fewer tokens left, or as many, and then the goal is of
    lower rank. -/
theorem Calls.less (h : s.Calls g g' t) (hs : Reachable tokens s) :
    Reachable tokens t ∧ (s.position < t.position ∧ t.rest.length < s.rest.length ∨
      t.rest.length = s.rest.length ∧ g'.rank < g.rank) := by
  obtain ⟨n, left, hsteps⟩ := h
  obtain ⟨word, hpass, ht⟩ := Reachable.steps (c := ⟨[.goal g], s⟩) hs hsteps
  refine ⟨ht, ?_⟩
  have hrest : t.rest.length = s.rest.length - word.length := by
    rw [hpass.rest, List.length_drop]
  have hposition : t.position = s.position + word.length := hpass.position
  rcases Nat.lt_or_ge t.rest.length s.rest.length with hlt | hge
  · exact Or.inl ⟨by omega, hlt⟩
  · -- with no token of the list passed, the stack has become lighter
    have hsame : t.rest.length = s.rest.length := by omega
    have hpotential : n + 1 + (15 * t.rest.length + weight (.goal g' :: left)) ≤
        15 * s.rest.length + weight [.goal g] := (hsteps.add_potential_le (light_goal g)).2
    have hrank := rank_le_weight g' left
    rw [weight_goal, hsame] at hpotential
    exact Or.inr ⟨hsame, by omega⟩

/-! ## Tokens -/

/-- A goal that may not be empty derives no empty word. -/
theorem ne_nil_of_form (hg : g.mayBeEmpty = false) {word : List Kind} (hword : Derives g.form word) :
    word ≠ [] := by
  rintro rfl
  -- an empty word would leave the first token to what follows, even to a marker
  have hopener : Kind.error ∈ openers g.form .error := derives_opener hword .error
  have table : ∀ g ∈ Goal.all, g.mayBeEmpty = false → Kind.error ∉ openers g.form .error := by decide
  exact table g g.mem_all hg hopener

/-- **A goal that may not be empty gets through tokens of the list, and no others.** -/
theorem exists_passes_of_recognize (hg : g.mayBeEmpty = false) (hfault : (s.recognize g).fault = none) :
    ∃ word, word ≠ [] ∧ word.length ≤ s.rest.length ∧ s.Passes word (s.recognize g).state := by
  obtain ⟨word, hword, hpass⟩ := derives_of_run hfault
  have hgoal : Symbol.goal g ≠ .goal .program := by
    rintro ⟨⟩
    cases hg
  have hinner : Kind.endOfFile ∉ word :=
    hword.endOfFile_not_mem (isInner_form (fun heq => nomatch heq) hgoal)
  rw [sententialForm_cons, sententialForm_nil, List.append_nil] at hword
  exact ⟨word, ne_nil_of_form hg hword, length_le_of_kindsAhead hpass.kinds hinner, hpass⟩

/-- **A run for a program goes no further than one token behind the list.** -/
theorem position_recognize_program_le (s : Recognizer) :
    (s.recognize .program).state.position ≤ s.position + s.rest.length + 1 := by
  cases hfault : (s.recognize .program).fault with
  | some fault =>
    obtain ⟨word, hword, hpass⟩ := endOfFile_not_mem_of_fault hfault
    have hinside := length_le_of_kindsAhead hpass.kinds hword
    have hposition := hpass.position
    omega
  | none =>
    -- what was passed is a block inside the list and one end token
    obtain ⟨word, hword, hpass⟩ := block_of_recognize hfault
    have hkinds := hpass.kinds
    have hposition := hpass.position
    rw [List.length_append, List.length_singleton] at hkinds hposition
    have hahead := (kindsAhead_eq_concat_iff.mp hkinds).1
    have hinside := length_le_of_kindsAhead hahead (hword.endOfFile_not_mem (by decide))
    omega

end Recognizer

/-- Recognizing a whole list stops one token behind it at the latest. -/
theorem Outcome.stopIndex_le (tokens : List Token) : stopIndex tokens ≤ tokens.length + 1 := by
  have hle := Recognizer.position_recognize_program_le (Recognizer.ofTokens tokens)
  show ((Recognizer.ofTokens tokens).recognize .program).state.position ≤ tokens.length + 1
  rw [← Nat.zero_add tokens.length]
  exact hle

namespace Recognizer

open Config

/-- **Every goal comes to its end, from any reachable state, and makes progress on the way.**  It takes
    at most fifteen steps for each token left and seven more, and they lead to its ending, where there
    is no further step.  A goal that may not be empty, such as a statement, a condition, an expression
    down to a value, an argument or what closes a conditional, consumes at least one token where it
    gets through, and none at the list's end or behind it.  What a goal calls has fewer tokens left,
    further on, or as many and a lower rank; so where a goal is called again inside itself, there are
    fewer.  And recognizing a whole list ends one token behind the list at the latest. -/
theorem recognize_terminates {tokens : List Token} {s : Recognizer} (hs : Reachable tokens s) :
    (∀ g : Goal,
      (∀ n d, Steps n ⟨[.goal g], s⟩ d →
        n ≤ 15 * s.rest.length + 7 ∧ d.state.run d.stack = s.recognize g) ∧
      ∃ n d, Steps n ⟨[.goal g], s⟩ d ∧ d.Ends (s.recognize g) ∧ ∀ e, ¬d.Step e) ∧
    (∀ g : Goal, g.mayBeEmpty = false → (s.recognize g).fault = none →
      s.position < (s.recognize g).state.position ∧
        (s.recognize g).state.position ≤ tokens.length) ∧
    (∀ g g' t, s.Calls g g' t → Reachable tokens t ∧
      (s.position < t.position ∧ t.rest.length < s.rest.length ∨
        t.rest.length = s.rest.length ∧ g'.rank < g.rank)) ∧
    (∀ g t, s.Calls g g t → s.position < t.position ∧ t.rest.length < s.rest.length) ∧
    Outcome.stopIndex tokens ≤ tokens.length + 1 := by
  refine ⟨?_, ?_, fun g g' t hcall => hcall.less hs, ?_, Outcome.stopIndex_le tokens⟩
  · intro g
    obtain ⟨n, d, hsteps, hend⟩ := exists_steps_run [.goal g] s
    refine ⟨?_, n, d, hsteps, hend, fun e => hend.not_step⟩
    intro m e hsteps'
    exact ⟨hsteps'.le_of_goal, hsteps'.run_eq⟩
  · intro g hg hfault
    obtain ⟨word, hne, hinside, hpass⟩ := exists_passes_of_recognize hg hfault
    have hlength := List.length_pos_iff.mpr hne
    have hrest : s.rest.length = tokens.length - s.position := by
      rw [hs.rest_eq, List.length_drop]
    have hposition := hpass.position
    omega
  · intro g t hcall
    rcases (hcall.less hs).2 with hless | ⟨-, hrank⟩
    · exact hless
    · exact absurd hrank (Nat.lt_irrefl _)

/-- The tokens of `x := ( y )`, with neither a semicolon nor an end token. -/
def groupedName : List Token :=
  [⟨.identifier, "x", 1⟩, ⟨.assign, ":=", 1⟩, ⟨.leftParen, "(", 1⟩, ⟨.identifier, "y", 1⟩,
   ⟨.rightParen, ")", 1⟩]

/-- In front of the group, with the record that was left by trying a condition, which fails at `:=`. -/
def beforeGroup : Recognizer :=
  ⟨groupedName.drop 2, 2, 1, #[],
    #[⟨.value, 0, 1⟩, ⟨.atom, 0, 1⟩, ⟨.factor, 0, 1⟩, ⟨.term, 0, 1⟩, ⟨.expr, 0, 1⟩]⟩

/-- The group is an expression that goes up to the list's end and holds another one, a token further on;
    recognizing all the tokens reaches the end as well. -/
theorem recognize_terminates_groupedName :
    (∃ n d, n ≤ 15 * 3 + 7 ∧ Steps n ⟨[.goal .expr], beforeGroup⟩ d ∧
      d.Ends (beforeGroup.recognize .expr)) ∧
    (beforeGroup.recognize .expr).fault = none ∧
    2 < (beforeGroup.recognize .expr).state.position ∧
    (beforeGroup.recognize .expr).state.position ≤ 5 ∧
    (∃ t, beforeGroup.Calls .expr .expr t ∧ 2 < t.position ∧ t.rest.length < 3) ∧
    Outcome.stopIndex groupedName ≤ 6 := by
  have hreachable : Reachable groupedName beforeGroup := by
    have htried := (@Reachable.start groupedName).perform (.recognize .condition)
    have hstate : ((Recognizer.ofTokens groupedName).perform (.recognize .condition)).perform
        (.expect .assign) = beforeGroup := by
      simp [beforeGroup, perform, groupedName, Recognizer.ofTokens]
    exact hstate ▸ htried.perform (.expect .assign)
  have hfault : (beforeGroup.recognize .expr).fault = none := by
    simp [beforeGroup, groupedName]
  -- from the expression down to the parenthesis, and past that
  have hcall : beforeGroup.Calls .expr .expr beforeGroup.advance := by
    have hfactor := ((Steps.refl ⟨[.goal .expr], beforeGroup⟩).tail (.goal rfl)).tail (.goal rfl)
    have hvalue := ((hfactor.tail (.goal rfl)).tail (.goal rfl)).tail (.goal rfl)
    exact ⟨5, _, hvalue.tail (.token (s := beforeGroup))⟩
  obtain ⟨hends, htokens, -, hagain, hstop⟩ := recognize_terminates hreachable
  obtain ⟨hbound, n, d, hsteps, hend, -⟩ := hends .expr
  obtain ⟨hstart, hinside⟩ := htokens .expr rfl hfault
  exact ⟨⟨n, d, (hbound n d hsteps).1, hsteps, hend⟩, hfault, hstart, hinside,
    ⟨_, hcall, hagain _ _ hcall⟩, hstop⟩

end Recognizer

end CalcFrontEnd
