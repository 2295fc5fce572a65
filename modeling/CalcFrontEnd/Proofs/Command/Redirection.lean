/-
  REDIRECTION — a command touches its output file and nothing else, and the file gets what would have
  been printed.

  1. **Specification** — a command is `InReach` of its files if its input holds a text and its output, if
     it has one, may be written.  That is said of the disk before the command, so the order of reading
     and writing does not matter, and the two may be one file.

  2. **The crux (`run_cases`)** — all that a run can do: refuse and leave the disk as it was; print; or put
     what it would have printed at one place.

  3. **Result** — `run_touches_output`, each part read off the three cases.
-/
import CalcFrontEnd.Proofs.Command.Pipeline

namespace CalcFrontEnd.Command

/-- `command.InReach disk` — the input holds a text, and the output, if there is one, may be written. -/
def InReach (command : Command) (disk : Disk) : Prop :=
  (∃ text, disk.read command.input = .ok text) ∧
    ∀ path, command.output? = some path → ∃ place, disk.target path = .ok place

/-! ## What a run can do -/

/-- Where the input cannot be read, that is all that is said. -/
theorem run_of_unreadable {command : Command} {disk : Disk} {refusal : Refusal}
    (h : disk.read command.input = .error refusal) :
    command.run disk = (refused "read" command.input refusal.reason, disk) := by
  unfold run
  simp only [h]

/-- Where the output cannot be written, that is all that is said. -/
theorem run_of_unwritable {command : Command} {disk : Disk} {text path : String} {refusal : Refusal}
    (hinput : disk.read command.input = .ok text) (houtput : command.output? = some path)
    (h : disk.target path = .error refusal) :
    command.run disk = (refused "write" path refusal.reason, disk) := by
  unfold run Disk.write
  simp only [hinput, houtput, h]

/-- **A run refuses, prints, or writes**: the first out of reach, the others on what the input holds. -/
theorem run_cases (command : Command) (disk : Disk) :
    (¬command.InReach disk ∧
        ∃ verb path reason, command.run disk = (refused verb path reason, disk)) ∨
      command.InReach disk ∧ ∃ text, disk.read command.input = .ok text ∧
        (command.output? = none ∧ command.run disk = (command.perform text, disk) ∨
          ∃ path place, command.output? = some path ∧ disk.target path = .ok place ∧
            command.run disk = ({ command.perform text with stdout := "" },
              disk.put place (.file (some (command.perform text).stdout)))) := by
  cases hinput : disk.read command.input with
  | error refusal =>
    refine Or.inl ⟨?_, _, _, _, run_of_unreadable hinput⟩
    rintro ⟨⟨text, htext⟩, -⟩
    rw [hinput] at htext
    cases htext
  | ok text =>
    cases houtput : command.output? with
    | none =>
      refine Or.inr ⟨⟨⟨text, hinput⟩, ?_⟩, text, rfl, Or.inl ⟨rfl, run_of_read houtput hinput⟩⟩
      intro path hpath
      rw [houtput] at hpath
      cases hpath
    | some path =>
      cases hplace : disk.target path with
      | error refusal =>
        refine Or.inl ⟨?_, _, _, _, run_of_unwritable hinput houtput hplace⟩
        rintro ⟨-, hwritable⟩
        obtain ⟨place, htarget⟩ := hwritable path houtput
        rw [hplace] at htarget
        cases htarget
      | ok place =>
        refine Or.inr ⟨⟨⟨text, hinput⟩, ?_⟩, text, rfl,
          Or.inr ⟨path, place, rfl, hplace, run_of_target houtput hinput hplace⟩⟩
        intro other hother
        rw [houtput] at hother
        cases hother
        exact ⟨place, hplace⟩

/-! ## What is said with and without an output -/

/-- What a command has to say does not depend on where it goes. -/
theorem perform_withoutOutput (command : Command) (text : String) :
    command.withoutOutput.perform text = command.perform text := by
  cases command <;> rfl

/-- Without an output a command prints what it has to say. -/
theorem run_withoutOutput {command : Command} {disk : Disk} {text : String}
    (h : disk.read command.input = .ok text) :
    command.withoutOutput.run disk = (command.perform text, disk) := by
  have hinput : disk.read command.withoutOutput.input = .ok text := by
    cases command <;> exact h
  have houtput : command.withoutOutput.output? = none := by
    cases command <;> rfl
  rw [run_of_read houtput hinput, perform_withoutOutput]

/-- The status of a verdict is not that of a failure. -/
theorem statusOf_ne_unreachable (isValid : Bool) : Report.statusOf isValid ≠ Report.unreachable := by
  cases isValid <;> decide

/-- A command that has its text does not end with the status of a failure. -/
theorem status_perform_ne (command : Command) (text : String) :
    (command.perform text).status ≠ Report.unreachable := by
  cases command with
  | scan input output => exact statusOf_ne_unreachable true
  | parse input name output => exact statusOf_ne_unreachable _
  | check input derivation => exact statusOf_ne_unreachable _

/-- **A command touches its output only, and redirection changes nothing else.**  On any disk, what
    differs after a command is at most what stands where its output path leads.  Nothing differs if it
    has no output or ends with the status of a failure; it does the latter exactly if its files are out
    of reach, and prints nothing then.  If a command with an output does not fail, the file holds what
    the same command without it prints on the same disk, and standard error and status are the same;
    nothing is printed. -/
theorem run_touches_output (command : Command) (disk : Disk) :
    ∃ report after, command.run disk = (report, after) ∧
      after.workingDirectory = disk.workingDirectory ∧
      (∀ location, after.find? location ≠ disk.find? location →
        ∃ path, command.output? = some path ∧ disk.locate path = .ok location) ∧
      (command.output? = none ∨ report.status = Report.unreachable → after = disk) ∧
      (report.status = Report.unreachable ↔ ¬command.InReach disk) ∧
      (report.status = Report.unreachable → report.stdout = "") ∧
      ∀ path, command.output? = some path → report.status ≠ Report.unreachable →
        ∃ plain place, command.withoutOutput.run disk = (plain, disk) ∧
          disk.locate path = .ok place ∧ after.locate path = .ok place ∧
          after.find? place = some (.file (some plain.stdout)) ∧
          report.stdout = "" ∧ report.stderr = plain.stderr ∧ report.status = plain.status := by
  rcases run_cases command disk with
    ⟨hreach, verb, path, reason, hrun⟩ |
    ⟨hreach, text, hinput, ⟨houtput, hrun⟩ | ⟨path, place, houtput, hplace, hrun⟩⟩
  · -- refused: the disk is the one before
    refine ⟨_, _, hrun, rfl, fun location hne => absurd rfl hne, fun _ => rfl,
      ⟨fun _ => hreach, fun _ => rfl⟩, fun _ => rfl, ?_⟩
    intro path _ hstatus
    exact absurd rfl hstatus
  · -- printed: likewise, and there is no output
    have hstatus := status_perform_ne command text
    refine ⟨_, _, hrun, rfl, fun location hne => absurd rfl hne, fun _ => rfl,
      ⟨fun h => absurd h hstatus, fun h => absurd hreach h⟩, fun h => absurd h hstatus, ?_⟩
    intro path hpath
    rw [houtput] at hpath
    cases hpath
  · -- written: one place differs, the one that the path leads to
    have hstatus := status_perform_ne command text
    obtain ⟨hlocate, hroot, hvacant⟩ := Disk.locate_of_target hplace
    refine ⟨_, _, hrun, rfl, ?_, ?_, ⟨fun h => absurd h hstatus, fun h => absurd hreach h⟩,
      fun h => absurd h hstatus, ?_⟩
    · intro location hne
      have hsame : location = place := by
        by_contra hother
        exact hne (Disk.find?_put_of_ne disk hother _)
      exact ⟨path, houtput, hsame ▸ hlocate⟩
    · rintro (hnone | hfailed)
      · rw [houtput] at hnone
        cases hnone
      · exact absurd hfailed hstatus
    · intro other hother _
      rw [houtput] at hother
      cases hother
      exact ⟨_, place, run_withoutOutput hinput, hlocate, Disk.locate_put hvacant _ hlocate,
        Disk.find?_put_self disk hroot _, rfl, rfl, rfl⟩

/-- The output may be the input itself: it is read before it is written. -/
example : (scan "in" (some "./in")).run ⟨[([['i', 'n']], .file (some "x"))], []⟩ =
    (⟨"", "", Report.valid⟩,
      ⟨[([['i', 'n']], .file (some "Identifier       x\nEndofFile        "))], []⟩) := by
  decide +kernel

end CalcFrontEnd.Command
