/-
  THE PIPELINE — `scan` into a file and `parse` of that file, beside `check`.

  1. **Streams** — a stream `holdsError` if one of its lines is a marker.  A written scan does exactly if
     the scan has an error in it (`holdsError_write`).

  2. **Outcomes** — the outcome on the stream and the outcome on the source have the same trace and the
     same fault (`outcome_of_stream`); what they may differ in is the line that the fault cites.  So
     their reports are the same, or end in messages that differ in a line number (`reports_of_stream`).

  3. **Files** — the file that `scan` wrote is the one that `parse` reads, and `check` reads what it read
     before.

  4. **Result** — `scan_parse_agrees_check`.
-/
import CalcFrontEnd.Command.Run
import CalcFrontEnd.Proofs.Disk.ReadBack
import CalcFrontEnd.Proofs.FrontEnd.Agreement

namespace CalcFrontEnd

open Text

/-! ## Errors in a stream -/

namespace TokenStream

/-- Whether a stream holds a lexical error: a message with its marker below it. -/
def holdsError (stream : String) : Bool := (lines stream.toList).any isMarkerLine

/-- No line of a written token is a marker; below each message there is one. -/
theorem marker_mem_streamWords_iff {items : List Item} (h : Writable items) :
    marker ∈ streamWords items ↔ items.filterMap Item.error? ≠ [] := by
  induction items with
  | nil => simp [streamWords]
  | cons item items ih =>
    cases item with
    | token token =>
      have hne : token.kind.name.toList :: words token.lexeme.toList ≠ marker :=
        cons_ne_marker (name_ne_marker (h token List.mem_cons_self).1) _
      rw [streamWords_token, List.mem_cons, ih h.tail]
      constructor
      · rintro (heq | hmem)
        · exact absurd heq.symm hne
        · exact hmem
      · intro hmem
        exact Or.inr hmem
    | error error =>
      rw [streamWords_error]
      constructor
      · intro _
        exact List.cons_ne_nil _ _
      · intro _
        exact List.mem_cons_of_mem _ List.mem_cons_self

theorem holdsError_write {items : List Item} (h : Writable items) :
    holdsError (write items) = true ↔ items.filterMap Item.error? ≠ [] := by
  rw [← marker_mem_streamWords_iff h, ← words_lines_write h, holdsError, List.any_eq_true,
    List.mem_map]
  constructor
  · rintro ⟨text, hmem, hmarker⟩
    exact ⟨text, hmem, beq_iff_eq.mp hmarker⟩
  · rintro ⟨text, hmem, hmarker⟩
    exact ⟨text, hmem, beq_iff_eq.mpr hmarker⟩

end TokenStream

open TokenStream

/-! ## Reports -/

/-- The outcome on a source text and that on its token stream have the same trace and fault. -/
theorem outcome_of_stream (source : String) :
    (recognizeStream (scanToStream source)).trace = (check source).2.trace ∧
      (recognizeStream (scanToStream source)).failure.map ParseError.fault =
        (check source).2.failure.map ParseError.fault := by
  have hstream : recognizeStream (scanToStream source) =
      Outcome.ofTokens (restored 1 (Scanner.scan source)) := by
    unfold recognizeStream
    rw [scanToStream, load_write_eq (writable_scan source)]
  obtain ⟨htrace, -, hfault, -⟩ :=
    Outcome.ofTokens_alike (map_kind_restored 1 (Scanner.scan source))
  rw [hstream]
  exact ⟨htrace, hfault⟩

/-- **The two reports differ in a line number at most**, and only where there is a fault. -/
theorem reports_of_stream (source name : String) :
    (recognizeStream (scanToStream source)).failure = none ∧ (check source).2.failure = none ∧
        (recognizeStream (scanToStream source)).report name = (check source).2.report name ∨
      ∃ trace fault line line',
        (recognizeStream (scanToStream source)).failure = some ⟨fault, line⟩ ∧
        (check source).2.failure = some ⟨fault, line'⟩ ∧
        (recognizeStream (scanToStream source)).report name =
          trace ++ [(ParseError.mk fault line).message] ∧
        (check source).2.report name = trace ++ [(ParseError.mk fault line').message] := by
  obtain ⟨htrace, hfault⟩ := outcome_of_stream source
  unfold Outcome.report Outcome.verdict
  rw [htrace]
  cases hchecked : (check source).2.failure with
  | none =>
    rw [hchecked] at hfault
    have hstream : (recognizeStream (scanToStream source)).failure = none :=
      Option.map_eq_none_iff.mp hfault
    rw [hstream]
    exact Or.inl ⟨rfl, rfl, rfl⟩
  | some error =>
    rw [hchecked] at hfault
    obtain ⟨⟨fault, line⟩, hstream, hsame⟩ := Option.map_eq_some_iff.mp hfault
    obtain rfl : fault = error.fault := hsame
    rw [hstream]
    exact Or.inr ⟨_, error.fault, line, error.line, rfl, rfl, rfl, rfl⟩

/-! ## Commands -/

namespace Command

/-- Without an output path a command says what it has to say about its input, and writes nothing. -/
theorem run_of_read {command : Command} {disk : Disk} {text : String}
    (houtput : command.output? = none) (hinput : disk.read command.input = .ok text) :
    command.run disk = (command.perform text, disk) := by
  unfold run
  simp only [hinput, houtput]

/-- With an output path that may be written, what it has to say goes to that place. -/
theorem run_of_target {command : Command} {disk : Disk} {text path : String} {place : Location}
    (houtput : command.output? = some path) (hinput : disk.read command.input = .ok text)
    (hplace : disk.target path = .ok place) :
    command.run disk = ({ command.perform text with stdout := "" },
      disk.put place (.file (some (command.perform text).stdout))) := by
  unfold run Disk.write
  simp only [hinput, houtput, hplace]

/-- The status of `parse` tells whether the stream's tokens are a program. -/
theorem status_parse (input text : String) (name output : Option String) :
    ((parse input name output).perform text).status =
      if (recognizeStream text).failure = none then Report.valid else Report.invalid := by
  show Report.statusOf (recognizeStream text).failure.isNone = _
  cases (recognizeStream text).failure <;> rfl

/-- The status of `check` tells whether there are no lexical errors and the tokens are a program. -/
theorem status_check (input text : String) (derivation : Bool) :
    ((check input derivation).perform text).status =
      if (CalcFrontEnd.check text).1 = [] ∧ (CalcFrontEnd.check text).2.failure = none then
        Report.valid
      else Report.invalid := by
  show Report.statusOf ((CalcFrontEnd.check text).1.isEmpty &&
    (CalcFrontEnd.check text).2.failure.isNone) = _
  cases (CalcFrontEnd.check text).1 <;> cases (CalcFrontEnd.check text).2.failure <;> rfl

/-- **Scanning into a file and parsing that file agrees with checking.**  On a disk where the input
    holds a text, the output may be written, and the two are not one file, `scan` exits as valid.
    `check` says the same before and after it.  It exits as valid exactly if `parse` does on what was
    written and that holds no error.  Where `parse` exits as valid, both say the same, whatever status
    `check` exits with.  Otherwise both exit as invalid, and what they say is the same trace and a last
    line that differs in the line number at most. -/
theorem scan_parse_agrees_check {disk : Disk} {input output source : String} {place : Location}
    (hinput : disk.read input = .ok source) (houtput : disk.target output = .ok place)
    (hapart : disk.locate input ≠ .ok place) (derivation : Bool) :
    ∃ scanned parsed checked,
      (scan input (some output)).run disk = (⟨"", "", Report.valid⟩, scanned) ∧
      scanned.read output = .ok (scanToStream source) ∧
      (parse output (some (fileName input)) none).run scanned = (parsed, scanned) ∧
      (check input derivation).run scanned = (checked, scanned) ∧
      (check input derivation).run disk = (checked, disk) ∧
      (checked.status = Report.valid ↔
        parsed.status = Report.valid ∧ holdsError (scanToStream source) = false) ∧
      (parsed.status = Report.valid → parsed.stdout = checked.stdout) ∧
      (parsed.status ≠ Report.valid →
        parsed.status = Report.invalid ∧ checked.status = Report.invalid ∧
        ∃ trace fault line line',
          parsed.stdout =
            "\n".intercalate (trace ++ [(ParseError.mk fault line).message]) ++ "\n" ∧
          checked.stdout =
            "\n".intercalate (trace ++ [(ParseError.mk fault line').message]) ++ "\n") := by
  have hread := Disk.read_put_target houtput (scanToStream source)
  have hkept := Disk.read_put_of_ne houtput hinput hapart (.file (some (scanToStream source)))
  refine ⟨_, _, _, run_of_target rfl hinput houtput, hread, run_of_read rfl hread,
    run_of_read rfl hkept, run_of_read rfl hinput, ?_⟩
  -- what is left is about the two outcomes and the errors, and no file comes into it
  have hparsed : ((parse output (some (fileName input)) none).perform (scanToStream source)).stdout =
      reportText (recognizeStream (scanToStream source)) (fileName input) := rfl
  have hchecked : ((check input derivation).perform source).stdout =
      reportText (CalcFrontEnd.check source).2 (fileName input) := rfl
  rw [hparsed, hchecked, status_parse, status_check]
  unfold reportText
  have hne : Report.invalid ≠ Report.valid := by decide
  rcases reports_of_stream source (fileName input) with
    ⟨hstream, hcheck, hreport⟩ | ⟨trace, fault, line, line', hstream, hcheck, hreport, hreport'⟩
  · have herrors : (CalcFrontEnd.check source).1 = [] ↔
        holdsError (scanToStream source) = false := by
      rw [← Bool.not_eq_true, scanToStream, holdsError_write (writable_scan source)]
      exact not_not.symm
    rw [hreport, hstream, hcheck, if_pos rfl, ← herrors]
    refine ⟨?_, fun _ => rfl, fun h => absurd rfl h⟩
    by_cases hnone : (CalcFrontEnd.check source).1 = []
    · rw [if_pos ⟨hnone, rfl⟩]
      exact ⟨fun _ => ⟨rfl, hnone⟩, fun _ => rfl⟩
    · rw [if_neg fun h => hnone h.1]
      exact ⟨fun h => absurd h hne, fun h => absurd h.2 hnone⟩
  · have hfails : ∀ error : ParseError, some error ≠ none := fun _ => Option.some_ne_none _
    rw [hreport, hreport', hstream, hcheck, if_neg (hfails _), if_neg fun h => hfails _ h.2]
    refine ⟨⟨fun h => absurd h hne, fun h => absurd h.1 hne⟩, fun h => absurd h hne, ?_⟩
    intro _
    exact ⟨rfl, rfl, trace, fault, line, line', rfl, rfl⟩

/-- A disk with a source text of one stray character and no program. -/
def strayCharacter : Disk where
  nodes := [([['w']], .directory), ([['w'], ['i', 'n']], .file (some "@"))]
  workingDirectory := [['w']]

/-- `parse` exits as valid and `check` does not, for the error alone; they say the same. -/
theorem scan_parse_agrees_check_strayCharacter :
    ∃ scanned parsed checked,
      (scan "in" (some "../w/out")).run strayCharacter = (⟨"", "", Report.valid⟩, scanned) ∧
      (parse "../w/out" (some "in") none).run scanned = (parsed, scanned) ∧
      (check "in" true).run strayCharacter = (checked, strayCharacter) ∧
      parsed.status = Report.valid ∧ checked.status ≠ Report.valid ∧
      parsed.stdout = checked.stdout := by
  have hname : fileName "in" = "in" := by decide +kernel
  have hinput : strayCharacter.read "in" = .ok "@" := by decide +kernel
  have houtput : strayCharacter.target "../w/out" = .ok [['w'], ['o', 'u', 't']] := by decide +kernel
  have hapart : strayCharacter.locate "in" ≠ .ok [['w'], ['o', 'u', 't']] := by decide +kernel
  obtain ⟨scanned, parsed, checked, hscan, hread, hparse, -, hcheck, hstatus, hsame, -⟩ :=
    scan_parse_agrees_check hinput houtput hapart true
  rw [hname] at hparse
  -- the stream holds the error and the end token, and an end token alone is a program
  have hload : load (scanToStream "@") = .ok [.endOfFile 3] := by decide +kernel
  have hempty : Nonterminal.block.Yields [] := .expand (by decide) .nil .nil
  have haccepted : (Outcome.ofTokens [.endOfFile 3]).failure = none :=
    (Recognizer.programError?_recognize_iff _).mpr ⟨[], hempty, by decide⟩
  have hvalid : parsed.status = Report.valid := by
    have hrun : (parse "../w/out" (some "in") none).run scanned = (_, scanned) :=
      run_of_read rfl hread
    rw [hparse] at hrun
    rw [(Prod.mk.inj hrun).1, status_parse, recognizeStream, hload]
    exact if_pos haccepted
  have hholds : holdsError (scanToStream "@") = true := by decide +kernel
  refine ⟨scanned, parsed, checked, hscan, hparse, hcheck, hvalid, ?_, hsame hvalid⟩
  intro h
  rw [hholds] at hstatus
  exact Bool.noConfusion (hstatus.mp h).2

end Command

end CalcFrontEnd
