/-
  NESTING — the derivation record is sound and properly nested, also where recognizing fails.

  1. **Specification** — `d.Sound kinds`: the kinds that a record covers are a word of its constituent,
     and not the empty one.  `d.Precedes d'`: a record that is made first ends before the other starts,
     or is a part of it.

  2. **What a stack has in store** — a record is made when its symbol comes to the top of the stack, and
     the stack may never get that far.  So the invariant is about the symbols that wait: what has been
     passed since the start of such a record, followed by any word of the letters above its symbol, is
     a word of its constituent (`Awaits`).  And the records that wait start no earlier than those below
     them, and start at no inner index of a record that was made (`Orderly`).

  3. **One step** — passing a token, expanding a goal and making a record keep this up (`Awaits.pass`,
     `Awaits.expand`, `Orderly.expand`, `Orderly.complete`).

  4. **Run** — hence every run does, whether it gets through or not (`run_kept`).

  5. **Result** — `derivations_sound_nested`.  No constituent has an end token in it, so what is recorded
     lies inside the list.
-/
import CalcFrontEnd.Proofs.Recognizer.Record

namespace CalcFrontEnd

/-- The nonterminal that a constituent is a word of. -/
def Constituent.nonterminal : Constituent → Nonterminal
  | statement => .statement
  | condition => .condition
  | expr => .expr
  | term => .term
  | factor => .factor
  | atom => .atom
  | value => .value

/-- A goal that is recorded stands for the nonterminal of its constituent. -/
theorem Goal.form_of_constituent? {g : Goal} {constituent : Constituent}
    (h : g.constituent? = some constituent) : g.form = [.nonterminal constituent.nonterminal] := by
  cases g <;> cases h <;> rfl

/-- No constituent is empty. -/
theorem Constituent.ne_nil {constituent : Constituent} {word : List Kind}
    (h : constituent.nonterminal.Yields word) : word ≠ [] :=
  Nonterminal.ne_nil (by cases constituent <;> rfl) h

/-- No constituent has an end token in it. -/
theorem Constituent.endOfFile_not_mem {constituent : Constituent} {word : List Kind}
    (h : constituent.nonterminal.Yields word) : Kind.endOfFile ∉ word := by
  refine Derives.endOfFile_not_mem h ?_
  cases constituent <;> decide

namespace Derivation

/-- `d.Sound kinds` — the kinds that `d` covers are a word of its constituent, and at least one. -/
structure Sound (d : Derivation) (kinds : List Kind) : Prop where
  start_lt : d.start < d.stop
  stop_le : d.stop ≤ kinds.length
  yields : d.constituent.nonterminal.Yields ((kinds.take d.stop).drop d.start)

/-- `d.Precedes d'` — `d` ends before `d'` starts, or is a part of it. -/
def Precedes (d d' : Derivation) : Prop :=
  d.stop ≤ d'.start ∨ d'.start ≤ d.start ∧ d.stop ≤ d'.stop

/-- More kinds at the end take nothing away. -/
theorem Sound.append {d : Derivation} {kinds : List Kind} (h : d.Sound kinds) (more : List Kind) :
    d.Sound (kinds ++ more) := by
  refine ⟨h.start_lt, ?_, ?_⟩
  · have hstop := h.stop_le
    rw [List.length_append]
    omega
  · rw [List.take_append_of_le_length h.stop_le]
    exact h.yields

end Derivation

/-! ## Records that wait on the stack -/

/-- `Awaits passed above stack` — for each record that waits on the stack, what has been passed since
    its start, followed by any word of the letters in front of it, is a word of its constituent.  The
    letters in front of the whole stack are `above`. -/
def Awaits (passed : List Kind) (above : List Letter) : List Symbol → Prop
  | [] => True
  | symbol :: stack =>
    (∀ constituent start, symbol = .complete constituent start → start ≤ passed.length ∧
      ∀ {word}, Derives above word →
        constituent.nonterminal.Yields (passed.drop start ++ word)) ∧
    Awaits passed (above ++ symbol.form) stack

theorem awaits_append {passed : List Kind} {above : List Letter} {symbols stack : List Symbol} :
    Awaits passed above (symbols ++ stack) ↔
      Awaits passed above symbols ∧ Awaits passed (above ++ sententialForm symbols) stack := by
  induction symbols generalizing above with
  | nil =>
    rw [sententialForm_nil, List.append_nil]
    exact ⟨fun h => ⟨trivial, h⟩, fun h => h.2⟩
  | cons symbol symbols ih =>
    show _ ∧ Awaits passed (above ++ symbol.form) (symbols ++ stack) ↔ (_ ∧ _) ∧ _
    rw [ih, sententialForm_cons, List.append_assoc, and_assoc]

namespace Awaits

variable {passed : List Kind} {above : List Letter} {stack : List Symbol}

/-- Where no record waits there is nothing to await. -/
theorem of_isComplete (h : ∀ symbol ∈ stack, symbol.isComplete = false) :
    Awaits passed above stack := by
  induction stack generalizing above with
  | nil => trivial
  | cons symbol stack ih =>
    obtain ⟨hsymbol, hstack⟩ := List.forall_mem_cons.mp h
    refine ⟨?_, ih hstack⟩
    rintro constituent start rfl
    cases hsymbol

/-- The letters in front may be replaced by letters that derive no more. -/
theorem mono {letters : List Letter} (h : Awaits passed above stack)
    (hletters : ∀ {form word}, Derives (letters ++ form) word → Derives (above ++ form) word) :
    Awaits passed letters stack := by
  induction stack generalizing above letters with
  | nil => trivial
  | cons symbol stack ih =>
    obtain ⟨hsymbol, hstack⟩ := h
    constructor
    · intro constituent start heq
      obtain ⟨hstart, hyields⟩ := hsymbol constituent start heq
      refine ⟨hstart, ?_⟩
      intro word hword
      have hword' : Derives (above ++ []) word := hletters (by rw [List.append_nil]; exact hword)
      rw [List.append_nil] at hword'
      exact hyields hword'
    · refine ih hstack ?_
      intro form word hword
      rw [List.append_assoc] at hword ⊢
      exact hletters hword

/-- A token that is passed goes over from the letters in front to what has been passed. -/
theorem pass {kind : Kind} (h : Awaits passed (.token kind :: above) stack) :
    Awaits (passed ++ [kind]) above stack := by
  induction stack generalizing above with
  | nil => trivial
  | cons symbol stack ih =>
    obtain ⟨hsymbol, hstack⟩ := h
    refine ⟨?_, ih hstack⟩
    intro constituent start heq
    obtain ⟨hstart, hyields⟩ := hsymbol constituent start heq
    constructor
    · rw [List.length_append]
      omega
    · intro word hword
      rw [List.drop_append_of_le_length hstart, List.append_assoc]
      exact hyields (.token kind hword)

/-- **Expanding a goal**: its own record starts here, and the records below it lose nothing. -/
theorem expand {g : Goal} {ahead : Kind} {symbols : List Symbol}
    (h : Awaits passed [] (.goal g :: stack)) (hexpand : g.expand ahead = .ok symbols) :
    Awaits passed [] (symbols ++ (g.completion passed.length ++ stack)) := by
  refine awaits_append.mpr ⟨of_isComplete (isComplete_expand hexpand), awaits_append.mpr ⟨?_, ?_⟩⟩
  · unfold Goal.completion
    cases hconstituent : g.constituent? with
    | none => trivial
    | some constituent =>
      refine ⟨?_, trivial⟩
      rintro _ _ ⟨⟩
      refine ⟨Nat.le_refl _, ?_⟩
      intro word hword
      have hform := Goal.form_of_constituent? hconstituent
      have hgoal : Derives (g.form ++ []) word :=
        derives_of_expand hexpand (by rw [List.append_nil]; exact hword)
      rw [List.append_nil, hform] at hgoal
      rw [List.drop_length]
      exact hgoal
  · rw [sententialForm_completion, List.append_nil]
    exact h.2.mono fun hword => derives_of_expand hexpand hword

end Awaits

/-! ## Records and their order -/

/-- The start of a record that waits. -/
def Symbol.start? : Symbol → Option Nat
  | .complete _ start => some start
  | _ => none

/-- The starts of the records that wait on a stack. -/
def openStarts (stack : List Symbol) : List Nat := stack.filterMap Symbol.start?

/-- `Orderly stack record` — the records that were made are nested; those that wait start no earlier
    than the ones below them, and none starts inside a record that was made. -/
structure Orderly (stack : List Symbol) (record : List Derivation) : Prop where
  starts : (openStarts stack).Pairwise (· ≥ ·)
  apart : ∀ d ∈ record, ∀ start ∈ openStarts stack, d.stop ≤ start ∨ start ≤ d.start
  nested : record.Pairwise Derivation.Precedes

theorem openStarts_of_isComplete {symbols : List Symbol}
    (h : ∀ symbol ∈ symbols, symbol.isComplete = false) : openStarts symbols = [] := by
  refine List.filterMap_eq_nil_iff.mpr ?_
  intro symbol hmem
  have hsymbol := h symbol hmem
  cases symbol with
  | complete _ _ => cases hsymbol
  | _ => rfl

/-- A record that waits has started. -/
theorem Awaits.start_le {passed : List Kind} {above : List Letter} {stack : List Symbol}
    (h : Awaits passed above stack) : ∀ start ∈ openStarts stack, start ≤ passed.length := by
  induction stack generalizing above with
  | nil => exact fun _ hmem => nomatch hmem
  | cons symbol stack ih =>
    intro start hmem
    obtain ⟨other, hother, hstart⟩ := List.mem_filterMap.mp hmem
    rcases List.mem_cons.mp hother with rfl | hother
    · cases other with
      | complete constituent first =>
        cases hstart
        exact (h.1 _ _ rfl).1
      | _ => cases hstart
    · exact ih h.2 start (List.mem_filterMap.mpr ⟨other, hother, hstart⟩)

namespace Orderly

variable {stack : List Symbol} {record : List Derivation}

/-- The record of a goal that is expanded starts behind all others. -/
theorem expand {g : Goal} {ahead : Kind} {symbols : List Symbol} {position : Nat}
    (h : Orderly (.goal g :: stack) record) (hexpand : g.expand ahead = .ok symbols)
    (hstarts : ∀ start ∈ openStarts stack, start ≤ position)
    (hstops : ∀ d ∈ record, d.stop ≤ position) :
    Orderly (symbols ++ (g.completion position ++ stack)) record := by
  have hopen : openStarts (symbols ++ (g.completion position ++ stack)) =
      openStarts (g.completion position) ++ openStarts stack := by
    unfold openStarts
    rw [List.filterMap_append, List.filterMap_append]
    exact congrArg (· ++ _) (openStarts_of_isComplete (isComplete_expand hexpand))
  have hcompletion : openStarts (g.completion position) = [] ∨
      openStarts (g.completion position) = [position] := by
    unfold Goal.completion
    cases g.constituent? with
    | none => exact Or.inl rfl
    | some constituent => exact Or.inr rfl
  have hstack : Orderly stack record := ⟨h.starts, h.apart, h.nested⟩
  rcases hcompletion with hnone | hone
  · rw [hnone, List.nil_append] at hopen
    exact ⟨hopen ▸ hstack.starts, hopen ▸ hstack.apart, h.nested⟩
  · rw [hone, List.singleton_append] at hopen
    refine ⟨hopen ▸ List.pairwise_cons.mpr ⟨hstarts, hstack.starts⟩, ?_, h.nested⟩
    intro d hd start hstart
    rw [hopen] at hstart
    rcases List.mem_cons.mp hstart with rfl | hstart
    · exact Or.inl (hstops d hd)
    · exact hstack.apart d hd start hstart

/-- **Making a record**: it has the records inside it that were made since its start, and the others in
    front of it. -/
theorem complete {constituent : Constituent} {start position : Nat}
    (h : Orderly (.complete constituent start :: stack) record)
    (hstops : ∀ d ∈ record, d.stop ≤ position) :
    Orderly stack (record ++ [⟨constituent, start, position⟩]) := by
  have hopen : openStarts (.complete constituent start :: stack) = start :: openStarts stack := rfl
  obtain ⟨hlater, hstarts⟩ := List.pairwise_cons.mp (hopen ▸ h.starts)
  have hfirst : start ∈ openStarts (.complete constituent start :: stack) := List.mem_cons_self
  refine ⟨hstarts, ?_, ?_⟩
  · intro d hd other hother
    rcases List.mem_append.mp hd with hd | hd
    · exact h.apart d hd other (List.mem_cons_of_mem _ hother)
    · rw [List.mem_singleton.mp hd]
      exact Or.inr (hlater other hother)
  · refine List.pairwise_append.mpr ⟨h.nested, List.pairwise_singleton _ _, ?_⟩
    intro d hd d' hd'
    rw [List.mem_singleton.mp hd']
    rcases h.apart d hd start hfirst with hbefore | hinside
    · exact Or.inl hbefore
    · exact Or.inr ⟨hinside, hstops d hd⟩

end Orderly

/-! ## Runs -/

namespace Recognizer

/-- `Kept origin passed stack s` — what a run that started at the front of a token list keeps up. -/
structure Kept (origin : Recognizer) (passed : List Kind) (stack : List Symbol) (s : Recognizer) :
    Prop where
  passes : origin.Passes passed s
  position : s.position = passed.length
  awaits : Awaits passed [] stack
  sound : ∀ d ∈ s.derivations.toList, d.Sound passed
  orderly : Orderly stack s.derivations.toList

namespace Kept

variable {origin s : Recognizer} {passed : List Kind} {stack : List Symbol}

theorem advance (h : Kept origin passed (.token s.lookahead.kind :: stack) s) :
    Kept origin (passed ++ [s.lookahead.kind]) stack s.advance where
  passes := h.passes.trans (.cons (.refl s.advance))
  position := by
    show s.position + 1 = _
    rw [h.position, List.length_append]
    rfl
  awaits := h.awaits.2.pass
  sound := fun d hd => (h.sound d hd).append _
  orderly := ⟨h.orderly.starts, h.orderly.apart, h.orderly.nested⟩

theorem expand {g : Goal} {symbols : List Symbol} (h : Kept origin passed (.goal g :: stack) s)
    (hexpand : g.expand s.lookahead.kind = .ok symbols) :
    Kept origin passed (symbols ++ (g.completion s.position ++ stack)) s where
  passes := h.passes
  position := h.position
  awaits := h.position ▸ h.awaits.expand hexpand
  sound := h.sound
  orderly := by
    refine h.orderly.expand hexpand ?_ ?_
    · rw [h.position]
      exact h.awaits.2.start_le
    · rw [h.position]
      exact fun d hd => (h.sound d hd).stop_le

theorem log {remark : Remark} (h : Kept origin passed (.remark remark :: stack) s) :
    Kept origin passed stack (s.log remark) where
  passes := ⟨h.passes.kinds, h.passes.rest, h.passes.position, h.passes.lastLine⟩
  position := h.position
  awaits := h.awaits.2
  sound := h.sound
  orderly := ⟨h.orderly.starts, h.orderly.apart, h.orderly.nested⟩

theorem record {constituent : Constituent} {start : Nat}
    (h : Kept origin passed (.complete constituent start :: stack) s) :
    Kept origin passed stack (s.record constituent start) := by
  obtain ⟨hstart, hyields⟩ := h.awaits.1 constituent start rfl
  -- nothing stands in front of the record any more, so what has been passed is a word
  have hword : constituent.nonterminal.Yields (passed.drop start) := by
    have hall := hyields .nil
    rw [List.append_nil] at hall
    exact hall
  have hsound : Derivation.Sound ⟨constituent, start, s.position⟩ passed := by
    have hlength := List.length_pos_iff.mpr (Constituent.ne_nil hword)
    rw [List.length_drop] at hlength
    rw [h.position]
    refine ⟨?_, Nat.le_refl _, ?_⟩
    · show start < passed.length
      omega
    · rw [List.take_length]
      exact hword
  refine ⟨⟨h.passes.kinds, h.passes.rest, h.passes.position, h.passes.lastLine⟩, h.position,
    h.awaits.2, ?_, ?_⟩
  · intro d hd
    rw [toList_derivations_record] at hd
    rcases List.mem_append.mp hd with hd | hd
    · exact h.sound d hd
    · rw [List.mem_singleton.mp hd]
      exact hsound
  · rw [toList_derivations_record]
    refine h.orderly.complete ?_
    rw [h.position]
    exact fun d hd => (h.sound d hd).stop_le

end Kept

theorem preserved_kept (origin : Recognizer) : Preserved (Kept origin) where
  advance := Kept.advance
  expand := Kept.expand
  log := Kept.log
  record := Kept.record

/-- **Wherever a run stops, its record is sound and nested.** -/
theorem run_kept (stack : List Symbol) (s : Recognizer) {origin : Recognizer} {passed : List Kind}
    (h : Kept origin passed stack s) :
    ∃ word, origin.Passes word (s.run stack).state ∧
      (∀ d ∈ (s.run stack).state.derivations.toList, d.Sound word) ∧
      (s.run stack).state.derivations.toList.Pairwise Derivation.Precedes := by
  obtain ⟨word, left, -, hkept, -⟩ := (preserved_kept origin).run stack s passed h
  exact ⟨passed ++ word, hkept.passes, hkept.sound, hkept.orderly.nested⟩

/-! ## Inside the list -/

/-- What is recorded of the kinds that lie ahead lies inside the list. -/
theorem stop_le_of_sound {s : Recognizer} {n : Nat} {d : Derivation} (h : d.Sound (s.kindsAhead n)) :
    d.stop ≤ s.rest.length := by
  have hlt := h.start_lt
  have hstop := h.stop_le
  rw [length_kindsAhead] at hstop
  -- the last kind that it covers is no end token
  obtain ⟨m, hm⟩ : ∃ m, d.stop = m + 1 := ⟨d.stop - 1, by omega⟩
  have hyields := h.yields
  rw [take_kindsAhead s hstop, hm, kindsAhead_succ,
    List.drop_append_of_le_length (by rw [length_kindsAhead]; omega)] at hyields
  have hne : s.kindAt m ≠ .endOfFile := by
    intro hend
    refine Constituent.endOfFile_not_mem hyields ?_
    rw [hend]
    exact List.mem_append_right _ List.mem_cons_self
  rcases Nat.lt_or_ge m s.rest.length with hin | hout
  · omega
  · exact absurd (kindAt_of_length_le hout) hne

end Recognizer

/-- **The derivation record is sound and properly nested, whether recognizing succeeds or fails.**  Each
    record covers at least one token, none behind the list, and the kinds it covers are a word of its
    constituent.  Of two records the one that was made first ends before the other starts, or is a
    part of it; so the record never goes back. -/
theorem Outcome.derivations_sound_nested (tokens : List Token) :
    (∀ d ∈ (ofTokens tokens).derivations, d.start < d.stop ∧ d.stop ≤ tokens.length ∧
      d.constituent.nonterminal.Yields (((tokens.take d.stop).drop d.start).map Token.kind)) ∧
    (ofTokens tokens).derivations.Pairwise
      (fun d d' => d.stop ≤ d'.start ∨ d'.start ≤ d.start ∧ d.stop ≤ d'.stop) ∧
    (ofTokens tokens).derivations.Pairwise (fun d d' => d.stop ≤ d'.stop) := by
  have hkept : Recognizer.Kept (Recognizer.ofTokens tokens) [] [.goal .program]
      (Recognizer.ofTokens tokens) :=
    ⟨.refl _, rfl, .of_isComplete (by decide), (fun _ hd => nomatch hd),
      .nil, (fun _ hd => nomatch hd), .nil⟩
  obtain ⟨word, hpass, hsound, hnested⟩ := Recognizer.run_kept _ _ hkept
  refine ⟨?_, hnested, ?_⟩
  · intro d hd
    have hahead := hsound d hd
    rw [← hpass.kinds] at hahead
    have hstop : d.stop ≤ tokens.length := Recognizer.stop_le_of_sound hahead
    have hbound := hahead.stop_le
    have hyields := hahead.yields
    rw [Recognizer.length_kindsAhead] at hbound
    rw [Recognizer.take_kindsAhead _ hbound, Recognizer.kindsAhead_of_le hstop,
      ← List.map_drop] at hyields
    exact ⟨hahead.start_lt, hstop, hyields⟩
  · refine hnested.imp_of_mem ?_
    intro d d' _ hd' hprecedes
    have hlt := (hsound d' hd').start_lt
    rcases hprecedes with hbefore | ⟨-, hinside⟩
    · omega
    · exact hinside

end CalcFrontEnd
